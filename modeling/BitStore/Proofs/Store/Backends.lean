import BitStore.Store.Basic
import BitStore.Proofs.Store.Requests

/-! An allocation belongs to one of the two backends for good; the other is left as it was. -/

namespace BitStore

open BitStore.Action

inductive Backend where
  | heap
  | pool
  deriving DecidableEq, Repr

namespace Region

def Covers (r : Region) (p : Nat) : Prop := r.base ≤ p ∧ p < r.base + r.len

instance (r : Region) (p : Nat) : Decidable (r.Covers p) := inferInstanceAs (Decidable (_ ∧ _))

end Region

namespace Arena

variable {a : Arena} {l : List Node} {p m : Nat}

lemma Layout.usable_within (ha : a.Layout l) (hp : a.Usable p m) :
    a.region.base ≤ p ∧ (p - a.region.base) % alignment = 0 ∧ 0 < m ∧ p + m ≤ a.region.base + a.region.len := by
  obtain ⟨hbase, hmod, hpos, _, hstop⟩ := ha.tiling_sized.payload (ha.usable_iff.mp hp)
  rw [ha.top_eq] at hstop
  have htop := ha.top_le
  exact ⟨hbase, hmod, hpos, hstop.trans (Nat.add_le_add_left htop _)⟩

lemma Layout.covers (ha : a.Layout l) (hp : a.Usable p m) : a.region.Covers p := by
  obtain ⟨hbase, _, hpos, hstop⟩ := ha.usable_within hp
  exact ⟨hbase, by omega⟩

lemma Layout.owns_names (ha : a.Layout l) (hp : a.Names p m) : a.owns p = .ok true := by
  rw [owns_eq ha, Tiling.owns, decide_eq_true]
  rcases hp with hp | hp
  · obtain ⟨hbase, _, hpos, _, hstop⟩ := ha.tiling_sized.payload (ha.usable_iff.mp hp)
    exact .inr ⟨hbase, Nat.lt_of_lt_of_le (Nat.lt_add_of_pos_right hpos) hstop⟩
  · exact .inl hp.1

lemma Layout.owns_outside (ha : a.Layout l) (hnull : p ≠ 0) (hp : ¬a.region.Covers p) : a.owns p = .ok false := by
  have htop : (a.tiling l).top ≤ a.region.len := ha.top_eq ▸ ha.top_le
  rw [owns_eq ha, Tiling.owns, decide_eq_false]
  rintro (hzero | ⟨hbase, hstop⟩)
  · exact hnull hzero
  · exact hp ⟨hbase, hstop.trans_le (Nat.add_le_add_left htop _)⟩

lemma Layout.inRegion (ha : a.Layout l) (p : Nat) : a.inRegion p = .ok (decide (a.region.Covers p)) := by
  rw [Arena.inRegion, Region.contains, Checked.add, if_pos ha.placed.stop_le]
  exact congrArg Except.ok (Bool.decide_and ..).symm

end Arena

namespace Store

def ledger (s : Store) : Backend → Ledger
  | .heap => s.heap.ledger
  | .pool => s.pool.elim .vacant Arena.ledger

def serving (s : Store) : Backend := if s.poolEnabled then .pool else .heap

def Issues (s : Store) (b : Backend) (p : Nat) : Prop := ∃ k, (s.ledger b).live p k

structure Parted (s : Store) : Prop where
  layout : ∀ a ∈ s.pool, ∃ l, a.Layout l
  blocks : ∀ p, s.Issues .heap p → p ≠ 0 ∧ ∀ a ∈ s.pool, ¬a.region.Covers p

structure Sound (s : Store) : Prop where
  tidy : s.heap.Tidy
  layout : ∀ a ∈ s.pool, ∃ l, a.Layout l
  clear : ∀ a ∈ s.pool, ∀ p m, s.heap.blocks[p]? = some m → Clear (p, m) (a.region.base, a.region.len)

/-- What is assumed of the platform in this state: it is honest, and its new blocks are clear of the pool. -/
structure Trusted (s : Store) : Prop where
  honest : ∀ r, s.heap.Admits r → s.heap.Honest r (s.heap.answer r)
  clear : ∀ r, s.heap.Admits r → ∀ q ∈ (s.heap.answer r).address, ∀ a ∈ s.pool,
    Clear (q, r.size) (a.region.base, a.region.len)

structure Frame (s t : Store) (b : Backend) : Prop where
  sound : t.Sound
  others : ∀ c, c ≠ b → t.ledger c = s.ledger c
  region : t.pool.map Arena.region = s.pool.map Arena.region
  heap : s.heap.Grows t.heap
  profiler : t.profiler = s.profiler

structure Trades (s t : Store) (b : Backend) (gone : Nat) (made : Option (Nat × Nat)) : Prop extends
    Frame s t b where
  trade : (s.ledger b).Trade (t.ledger b) gone made

structure Writes (s t : Store) (b : Backend) (p : Nat) : Prop extends Frame s t b where
  write : (s.ledger b).Write (t.ledger b) p

structure Refused (s t : Store) : Prop where
  pool : t.pool = s.pool
  profiler : t.profiler = s.profiler
  heap : s.heap.Refused t.heap

/-- A pointer that may be passed to the store: null has no bytes, and is the business of the backend that
serves. -/
def Names (s : Store) (b : Backend) (p j : Nat) : Prop :=
  (s.ledger b).live p j ∨ p = 0 ∧ j = 0 ∧ b = s.serving

variable {s t u : Store} {a a' : Arena} {b c : Backend} {p q m n j k gone : Nat} {made : Option (Nat × Nat)}

lemma Refused.refl (s : Store) : s.Refused s := ⟨rfl, rfl, .refl _⟩

lemma Frame.trans (h : s.Frame t b) (h' : t.Frame u b) : s.Frame u b where
  sound := h'.sound
  others c hc := (h'.others c hc).trans (h.others c hc)
  region := h'.region.trans h.region
  heap := h.heap.trans h'.heap
  profiler := h'.profiler.trans h.profiler

lemma Sound.writes_self (hs : s.Sound) (b : Backend) (p : Nat) : s.Writes s b p :=
  ⟨⟨hs, fun _ _ => rfl, rfl, .refl _, rfl⟩, rfl, fun _ _ _ _ _ _ => rfl⟩

lemma Trades.write (h : s.Trades t b gone (some (q, k))) (hw : t.Writes u b q) :
    s.Trades u b gone (some (q, k)) :=
  ⟨h.toFrame.trans hw.toFrame, h.trade.write hw.write⟩

lemma Writes.trans (h : s.Writes t b p) (h' : t.Writes u b p) : s.Writes u b p where
  toFrame := h.toFrame.trans h'.toFrame
  write := ⟨h'.write.live.trans h.write.live, fun r m hr hne i hi =>
    (h'.write.kept r m (h.write.live ▸ hr) hne i hi).trans (h.write.kept r m hr hne i hi)⟩

lemma Writes.live (h : s.Writes t b p) (c : Backend) : (t.ledger c).live = (s.ledger c).live := by
  by_cases hc : c = b
  · subst hc
    exact h.write.live
  · rw [h.others c hc]

lemma ledger_pool (ha : s.pool = some a) : s.ledger .pool = a.ledger := by
  rw [ledger, ha]
  rfl

lemma live_pool : (s.ledger .pool).live p m ↔ ∃ a, s.pool = some a ∧ a.Usable p m := by
  cases ha : s.pool with
  | none => simp [ledger, ha, Ledger.vacant]
  | some a => simp [ledger, ha, Arena.ledger]

lemma serving_eq_pool_iff : s.serving = .pool ↔ ∃ a, s.pool = some a := by
  rw [serving, poolEnabled]
  cases s.pool <;> simp

lemma serving_eq_heap_iff : s.serving = .heap ↔ s.pool = none := by
  rw [serving, poolEnabled]
  cases s.pool <;> simp

lemma Names.pool (hp : s.Names .pool p j) : ∃ a, s.pool = some a ∧ a.Names p j := by
  rcases hp with hp | ⟨rfl, rfl, hserving⟩
  · obtain ⟨a, ha, hp⟩ := live_pool.mp hp
    exact ⟨a, ha, .inl hp⟩
  · obtain ⟨a, ha⟩ := serving_eq_pool_iff.mp hserving.symm
    exact ⟨a, ha, .inr ⟨rfl, rfl⟩⟩

lemma Names.heap (hp : s.Names .heap p j) : s.heap.Names p j := by
  rcases hp with hp | ⟨hnull, hj, _⟩
  · exact .inl hp
  · exact .inr ⟨hnull, hj⟩

section Parted

lemma issues_pool : s.Issues .pool p ↔ ∃ a, s.pool = some a ∧ ∃ k, a.Usable p k := by
  simp only [Issues, live_pool]
  exact exists_comm.trans (exists_congr fun _ => exists_and_left)

lemma Parted.pos (hs : s.Parted) (hp : s.Issues b p) : p ≠ 0 := by
  cases b with
  | heap => exact (hs.blocks p hp).1
  | pool =>
    obtain ⟨a, ha, k, hk⟩ := issues_pool.mp hp
    obtain ⟨l, hl⟩ := hs.layout a ha
    exact hl.usable_pos hk

lemma Parted.covers (hs : s.Parted) (ha : s.pool = some a) (hp : s.Issues .pool p) : a.region.Covers p := by
  obtain ⟨_, heq, k, hk⟩ := issues_pool.mp hp
  obtain rfl := Option.some.inj (ha.symm.trans heq)
  obtain ⟨l, hl⟩ := hs.layout a ha
  exact hl.covers hk

lemma Parted.unique (hs : s.Parted) (hb : s.Issues b p) (hc : s.Issues c p) : b = c := by
  have hno (hpool : s.Issues .pool p) (hheap : s.Issues .heap p) : False := by
    obtain ⟨a, ha, _⟩ := issues_pool.mp hpool
    exact (hs.blocks p hheap).2 a ha (hs.covers ha hpool)
  cases b <;> cases c
  · rfl
  · exact (hno hc hb).elim
  · exact (hno hb hc).elim
  · rfl

end Parted

section Sound

lemma Sound.in_region (hs : s.Sound) (ha : s.pool = some a) (hp : a.Usable p m) :
    a.region.base ≤ p ∧ (p - a.region.base) % alignment = 0 ∧ 0 < m ∧ p + m ≤ a.region.base + a.region.len := by
  obtain ⟨l, hl⟩ := hs.layout a ha
  exact hl.usable_within hp

lemma Sound.outside (hs : s.Sound) (ha : s.pool = some a) (hp : s.heap.blocks[p]? = some m) :
    ¬a.region.Covers p := by
  have hclear := hs.clear a ha p m hp
  have hpos := (hs.tidy.placed p m hp).2.2
  simp only [Clear, Region.Covers] at hclear ⊢
  omega

lemma Sound.parted (hs : s.Sound) : s.Parted where
  layout := hs.layout
  blocks p hp := by
    obtain ⟨m, hm⟩ := hp
    exact ⟨hs.tidy.pos hm, fun a ha => hs.outside ha hm⟩

lemma Sound.pos (hs : s.Sound) (hp : (s.ledger b).live p m) : p ≠ 0 := hs.parted.pos ⟨m, hp⟩

lemma Sound.backend_unique (hs : s.Sound) (hb : (s.ledger b).live p m) (hc : (s.ledger c).live p n) : b = c :=
  hs.parted.unique ⟨m, hb⟩ ⟨n, hc⟩

lemma inPool_eq_some (ha : s.pool = some a) (hp : a.region.base ≤ p ∧ p < a.region.base + a.region.len) :
    s.inPool p = some a := by
  simp [inPool, ha, hp]

lemma Sound.inPool_pool (hs : s.Sound) (ha : s.pool = some a) (hp : a.Usable p m) : s.inPool p = some a := by
  obtain ⟨hbase, _, hpos, hstop⟩ := hs.in_region ha hp
  exact inPool_eq_some ha ⟨hbase, by omega⟩

lemma Sound.inPool_heap (hs : s.Sound) (hp : s.heap.blocks[p]? = some m) : s.inPool p = none := by
  cases ha : s.pool with
  | none => simp [inPool, ha]
  | some a =>
    have hout := hs.outside ha hp
    rw [Region.Covers] at hout
    simp only [inPool, ha, Option.filter_some, Bool.and_eq_true, decide_eq_true_eq, if_neg hout]

lemma Sound.byte_eq (hs : s.Sound) (hp : (s.ledger b).live p m) (i : Nat) :
    s.byte p i = (s.ledger b).byte p i := by
  cases b with
  | heap =>
    rw [byte, memoryAt, hs.inPool_heap hp]
    rfl
  | pool =>
    obtain ⟨a, ha, hp⟩ := live_pool.mp hp
    have hbase := (hs.in_region ha hp).1
    rw [byte, memoryAt, hs.inPool_pool ha hp, ledger_pool ha]
    change a.memory.byte (p - a.region.base + i) = a.memory.byte (p + i - a.region.base)
    congr 1
    omega

lemma Sound.aligned (hs : s.Sound) (hp : (s.ledger b).live p m) : (s.memoryAt p).2 % 8 = 0 := by
  cases b with
  | heap =>
    rw [memoryAt, hs.inPool_heap hp]
    exact (hs.tidy.placed p m hp).2.1
  | pool =>
    obtain ⟨a, ha, hp⟩ := live_pool.mp hp
    rw [memoryAt, hs.inPool_pool ha hp]
    exact (hs.in_region ha hp).2.1

lemma word_congr (hs : (s.memoryAt p).2 % 8 = 0) (ht : (t.memoryAt q).2 % 8 = 0) {i : Nat}
    (h : ∀ k < 8, t.byte q (8 * i + k) = s.byte p (8 * i + k)) : t.word q i = s.word p i := by
  change (t.memoryAt q).1.word ((t.memoryAt q).2 / 8 + i) = (s.memoryAt p).1.word ((s.memoryAt p).2 / 8 + i)
  refine Memory.word_eq_of_bytes fun k hk => ?_
  have hs' : 8 * ((s.memoryAt p).2 / 8 + i) + k = (s.memoryAt p).2 + (8 * i + k) := by omega
  have ht' : 8 * ((t.memoryAt q).2 / 8 + i) + k = (t.memoryAt q).2 + (8 * i + k) := by omega
  rw [hs', ht']
  exact h k hk

end Sound

section Routes

lemma route_off (ha : s.pool = none) (p : Nat) : (route p).run s = ⟨.ok none, s, []⟩ := by
  have hget : (Action.get : Action Store Store).run s = ⟨.ok s, s, []⟩ := rfl
  rw [route, run_bind, hget]
  simp only [ha]
  rfl

lemma route_owned (ha : s.pool = some a) (hp : a.owns p = .ok true) : (route p).run s = ⟨.ok (some a), s, []⟩ := by
  have hget : (Action.get : Action Store Store).run s = ⟨.ok s, s, []⟩ := rfl
  rw [route, run_bind, hget]
  simp only [ha, hp]
  rfl

lemma route_unowned (ha : s.pool = some a) (hp : a.owns p = .ok false) : (route p).run s =
    (do
      if ← a.inRegion p then
        Action.say (.neverHandedOut p)
        Action.fail (.invalidPointer p)
      else return none : Action Store (Option Arena)).run s := by
  have hget : (Action.get : Action Store Store).run s = ⟨.ok s, s, []⟩ := rfl
  rw [route, run_bind, hget]
  simp only [ha, hp]
  rfl

lemma route_inside {l : List Node} (ha : s.pool = some a) (hl : a.Layout l) (howns : a.owns p = .ok false)
    (hp : a.region.Covers p) :
    (route p).run s = ⟨.error (.error (.invalidPointer p)), s, [.neverHandedOut p]⟩ := by
  rw [route_unowned ha howns, hl.inRegion, decide_eq_true hp]
  rfl

lemma route_outside {l : List Node} (ha : s.pool = some a) (hl : a.Layout l) (hnull : p ≠ 0)
    (hp : ¬a.region.Covers p) : (route p).run s = ⟨.ok none, s, []⟩ := by
  rw [route_unowned ha (hl.owns_outside hnull hp), hl.inRegion, decide_eq_false hp]
  rfl

lemma Parted.route (hs : s.Parted) (hp : s.Names b p j) :
    ∃ x, (route p).run s = ⟨.ok x, s, []⟩ ∧ match b with
      | .heap => x = none ∧ s.heap.Names p j
      | .pool => ∃ a, x = some a ∧ s.pool = some a ∧ a.Names p j := by
  cases b with
  | pool =>
    obtain ⟨a, ha, hp⟩ := hp.pool
    obtain ⟨l, hl⟩ := hs.layout a ha
    exact ⟨some a, route_owned ha (hl.owns_names hp), a, rfl, ha, hp⟩
  | heap =>
    refine ⟨none, ?_, rfl, hp.heap⟩
    cases ha : s.pool with
    | none => exact route_off ha p
    | some a =>
      rcases hp with hp | ⟨_, _, hserving⟩
      swap
      · exact absurd (serving_eq_heap_iff.mp hserving.symm) (by simp [ha])
      obtain ⟨l, hl⟩ := hs.layout a ha
      obtain ⟨hnull, hout⟩ := hs.blocks p ⟨j, hp⟩
      exact route_outside ha hl hnull (hout a ha)

end Routes

section Writes

lemma Sound.withPool (hs : s.Sound) (ha : s.pool = some a) {l : List Node} (hl : a'.Layout l)
    (hregion : a'.region = a.region) : ({ s with pool := some a' } : Store).Sound where
  tidy := hs.tidy
  layout := by
    rintro _ ⟨⟩
    exact ⟨l, hl⟩
  clear := by
    rintro _ ⟨⟩
    rw [hregion]
    exact hs.clear a ha

lemma Sound.onPool (hs : s.Sound) (ha : s.pool = some a) {l : List Node} (hl : a'.Layout l)
    (hregion : a'.region = a.region) : s.Frame { s with pool := some a' } .pool where
  sound := hs.withPool ha hl hregion
  others
    | .heap, _ => rfl
    | .pool, hc => absurd rfl hc
  region := by simp [ha, hregion]
  heap := .refl _
  profiler := rfl

lemma Sound.onHeap (hs : s.Sound) {h : Heap} (hh : h.Tidy) (hgrows : s.heap.Grows h)
    (hclear : ∀ a ∈ s.pool, ∀ p m, h.blocks[p]? = some m → Clear (p, m) (a.region.base, a.region.len)) :
    s.Frame { s with heap := h } .heap where
  sound := ⟨hh, hs.layout, hclear⟩
  others
    | .heap, hc => absurd rfl hc
    | .pool, _ => rfl
  region := rfl
  heap := hgrows
  profiler := rfl

lemma Sound.writes (hs : s.Sound) (hp : (s.ledger b).live p k) {f : Memory → Nat → Memory}
    (hf : ∀ m o, o % 8 = 0 → ∀ x, ¬(o ≤ x ∧ x < o + k) → (f m o).byte x = m.byte x) :
    s.Writes (s.onMemory p f) b p := by
  have haligned := hs.aligned hp
  cases b with
  | heap =>
    rw [memoryAt, hs.inPool_heap hp] at haligned
    rw [onMemory, hs.inPool_heap hp]
    have hframe := hs.onHeap (h := { s.heap with memory := f s.heap.memory p }) ⟨hs.tidy.placed, hs.tidy.apart⟩
      ⟨rfl, Nat.le_refl _, fun _ _ => .inl⟩ hs.clear
    refine ⟨hframe, rfl, fun r m hr hne i hi => ?_⟩
    have hclear := hs.tidy.apart r m p k hr hp hne
    simp only [Clear] at hclear
    exact hf _ p haligned _ (by omega)
  | pool =>
    obtain ⟨a, ha, hp⟩ := live_pool.mp hp
    rw [memoryAt, hs.inPool_pool ha hp] at haligned
    rw [onMemory, hs.inPool_pool ha hp]
    obtain ⟨l, hl⟩ := hs.layout a ha
    refine ⟨hs.onPool ha (hl.withMemory _) rfl, ?_⟩
    rw [ledger_pool ha]
    exact Arena.write_ledger hl hp (hf _ _ haligned)

lemma Sound.setBytes (hs : s.Sound) (hp : (s.ledger b).live p k) {i : Nat} (f : Nat → UInt8) (hn : i + n ≤ k) :
    s.Writes (s.setBytes p i f n) b p := by
  refine hs.writes hp fun m o _ x hx => ?_
  rw [Memory.byte_setBytes, if_neg (by omega)]

lemma Sound.setWords (hs : s.Sound) (hp : (s.ledger b).live p k) {i : Nat} (f : Nat → UInt64)
    (hn : 8 * (i + n) ≤ k) : s.Writes (s.setWords p i f n) b p := by
  refine hs.writes hp fun m o ho x hx => ?_
  rw [Memory.byte_setWords, if_neg (by omega)]

end Writes

section Requests

lemma Sound.trades (hs : s.Sound) (ha : s.pool = some a) (h : a.Trades a' gone made) :
    s.Trades { s with pool := some a' } .pool gone made := by
  obtain ⟨l, hl⟩ := h.layout
  refine ⟨hs.onPool ha hl h.region, ?_⟩
  rw [ledger_pool ha]
  exact h.trade

lemma Sound.meets (hs : s.Sound) (ht : s.Trusted) {h : Heap} (hh : s.heap.Meets h p q k) :
    s.Trades { s with heap := h } .heap p (some (q, k)) := by
  obtain ⟨r, hr, rfl, rfl, hq, rfl⟩ := hh
  have honest := ht.honest r hr
  refine ⟨hs.onHeap (Heap.met_tidy hs.tidy hr honest hq) (Heap.met_grows hq) fun a ha p m hp => ?_,
    Heap.met_trade hs.tidy hr honest hq⟩
  rw [Heap.met, Heap.blocks_met] at hp
  split at hp
  · next heq =>
    subst heq hp
    exact ht.clear r hr p hq a ha
  · exact hs.clear a ha p m hp.1

lemma Parted.allocate_pool (hs : s.Parted) (ha : s.pool = some a) (n : Nat) :
    (allocate n).Settles s (fun _ t => t = s) fun q t => ∃ a', t = { s with pool := some a' } ∧ ∃ k, n ≤ k ∧
      a.Trades a' 0 (some (q, k)) ∧ ∀ i < n, a'.byte (q + i) = 0 := by
  obtain ⟨l, hl⟩ := hs.layout a ha
  apply yields_get.bind_settles
  rw [ha]
  refine (Arena.allocate_cleared hl n).zoom ?_ fun q a' h => ⟨a', rfl, h⟩
  rintro _ _ rfl
  rw [← ha]

lemma Parted.resize_pool (hs : s.Parted) (ha : s.pool = some a) (hp : a.Names p j) (n : Nat) :
    (resizeBlock p n).Settles s (fun _ t => t = s) fun q t => ∃ a', t = { s with pool := some a' } ∧ ∃ k, n ≤ k ∧
      a.Trades a' p (some (q, k)) ∧ ∀ i < min j n, a'.byte (q + i) = a.byte (p + i) := by
  obtain ⟨l, hl⟩ := hs.layout a ha
  apply (yields_of_run (route_owned ha (hl.owns_names hp))).bind_settles
  refine (Arena.resize_trades hl n hp).zoom ?_ fun q a' h => ⟨a', rfl, h⟩
  rintro _ _ rfl
  rw [← ha]

lemma Parted.giveBack_pool (hs : s.Parted) (ha : s.pool = some a) (hp : a.Names p j) :
    (giveBack p).Ends s fun _ t => ∃ a', t = { s with pool := some a' } ∧ a.Trades a' p none := by
  obtain ⟨l, hl⟩ := hs.layout a ha
  apply (yields_of_run (route_owned ha (hl.owns_names hp))).bind_ends
  obtain ⟨_, a', hyields, htrades⟩ := Arena.giveBack_trades hl hp
  exact ⟨_, _, yields_zoom hyields, a', rfl, htrades⟩

theorem resizeBlock_settles (hs : s.Sound) (ht : s.Trusted) (n : Nat) (hp : s.Names b p j) :
    (resizeBlock p n).Settles s (fun _ t => s.Refused t) fun q t => ∃ k, n ≤ k ∧ s.Trades t b p (some (q, k)) ∧
      ∀ i < min j n, (t.ledger b).byte q i = (s.ledger b).byte p i := by
  cases b with
  | heap =>
    obtain ⟨_, hroute, rfl, hp⟩ := hs.parted.route hp
    apply (yields_of_run hroute).bind_settles
    refine (Heap.resize_meets hs.tidy ht.honest n hp).zoom (fun e h hh => ⟨rfl, rfl, hh⟩) ?_
    rintro q h ⟨k, hk, hmeets, hbytes⟩
    exact ⟨k, hk, hs.meets ht hmeets, hbytes⟩
  | pool =>
    obtain ⟨a, ha, hp⟩ := hp.pool
    refine (hs.parted.resize_pool ha hp n).mono ?_ ?_
    · rintro e _ rfl
      exact .refl _
    · rintro q _ ⟨a', rfl, k, hk, htrades, hbytes⟩
      refine ⟨k, hk, hs.trades ha htrades, ?_⟩
      rw [ledger_pool ha]
      exact hbytes

theorem giveBack_ends (hs : s.Sound) (hp : s.Names b p j) :
    (giveBack p).Ends s fun _ t => s.Trades t b p none := by
  cases b with
  | heap =>
    obtain ⟨_, hroute, rfl, _⟩ := hs.parted.route hp
    apply (yields_of_run hroute).bind_ends
    exact ⟨(), _, ⟨rfl, rfl⟩, hs.onHeap (Heap.giveBack_tidy hs.tidy p) (Heap.giveBack_grows _ p)
      fun a ha q m hq => hs.clear a ha q m (Heap.of_giveBack hq), Heap.giveBack_trade _ p⟩
  | pool =>
    obtain ⟨a, ha, hp⟩ := hp.pool
    obtain ⟨x, _, hyields, a', rfl, htrades⟩ := hs.parted.giveBack_pool ha hp
    exact ⟨x, _, hyields, hs.trades ha htrades⟩

theorem allocate_settles (hs : s.Sound) (ht : s.Trusted) (n : Nat) :
    (allocate n).Settles s (fun _ t => s.Refused t) fun q t => ∃ k, n ≤ k ∧
      s.Trades t s.serving 0 (some (q, k)) ∧ ∀ i < n, (t.ledger s.serving).byte q i = 0 := by
  cases ha : s.pool with
  | none =>
    rw [serving_eq_heap_iff.mpr ha]
    apply yields_get.bind_settles
    rw [ha]
    refine (Heap.allocate_meets ht.honest n).zoom (fun e h hh => ⟨rfl, rfl, hh⟩) ?_
    rintro q h ⟨k, hk, hmeets, hzeros⟩
    exact ⟨k, hk, hs.meets ht hmeets, hzeros⟩
  | some a =>
    rw [serving_eq_pool_iff.mpr ⟨a, ha⟩]
    refine (hs.parted.allocate_pool ha n).mono ?_ ?_
    · rintro e _ rfl
      exact .refl _
    · rintro q _ ⟨a', rfl, k, hk, htrades, hzeros⟩
      exact ⟨k, hk, hs.trades ha htrades, hzeros⟩

end Requests

end Store

end BitStore
