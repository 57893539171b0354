import BitStore.Proofs.Arena.Pointers
import BitStore.Proofs.Store.Changes

namespace BitStore

open BitStore.Action

namespace Heap

variable {h : Heap} {p j : Nat}

lemma resize_requests (hnull : h.blocks[0]? = none) (hp : h.Names p j) (n : Nat) :
    ∃ r, h.Admits r ∧ r.replaced?.getD 0 = p ∧ (resize p n).run h = (request r).run h := by
  have hget : (Action.get : Action Heap Heap).run h = ⟨.ok h, h, []⟩ := rfl
  rcases hp with hp | ⟨rfl, _⟩
  · refine ⟨.resized p j (max n 1), ⟨hp, Nat.le_max_right n 1⟩, rfl, ?_⟩
    rw [resize, run_bind_ok hget, hp]
  · refine ⟨.fresh (max n 1), Nat.le_max_right n 1, rfl, ?_⟩
    rw [resize, run_bind_ok hget, hnull]

end Heap

namespace Arena

variable {a : Arena} {l : List Node} {p : Nat}

lemma Layout.held?_none (ha : a.Layout l) (hp : ∀ k, ¬a.Usable p k) : (a.tiling l).held? p = none := by
  rw [Tiling.held?_eq_none_iff]
  intro hmem
  obtain ⟨⟨_, k⟩, hk, rfl⟩ := List.mem_map.mp hmem
  exact hp k (ha.usable_iff.mpr hk)

lemma Layout.giveBack_refused (ha : a.Layout l) (hnull : p ≠ 0) (hp : ∀ k, ¬a.Usable p k) :
    (giveBack p).Yields a (.error (.error (.invalidPointer p))) a := by
  have hfollows := giveBack_follows ha p
  rwa [Tiling.giveBack, if_neg hnull, ha.held?_none hp] at hfollows

lemma Layout.resize_refused (ha : a.Layout l) (hnull : p ≠ 0) (hp : ∀ k, ¬a.Usable p k) (n : Nat) :
    (resize p n).Yields a (.error (.error (.invalidPointer p))) a := by
  have hfollows := resize_follows ha p n
  rwa [Tiling.resize, if_neg hnull, ha.held?_none hp] at hfollows

end Arena

namespace Store

/-- What is assumed of the platform in this state: it hands out nothing inside the pool. -/
def Outlying (s : Store) : Prop :=
  ∀ r, s.heap.Admits r → ∀ q ∈ (s.heap.answer r).address, q ≠ 0 ∧ ∀ a ∈ s.pool, ¬a.region.Covers q

def Routes {α : Type} (s : Store) (x : Action Store α) (heap : Action Heap α) (pool : Action Arena α) :
    Backend → Prop
  | .heap => x.run s = (onHeap heap).run s
  | .pool => ∃ a, s.pool = some a ∧ x.run s = (onPool a pool).run s

def Stays (s t : Store) : Prop := ∀ a ∈ s.pool, ∃ a' ∈ t.pool, a'.region = a.region

structure Swaps (s t : Store) (b : Backend) (gone : Nat) (made : Option Nat) : Prop where
  parted : t.Parted
  region : s.Stays t
  issues : ∀ p, t.Issues b p ↔ s.Issues b p ∧ p ≠ gone ∨ made = some p
  others : ∀ c, c ≠ b → ∀ p, t.Issues c p ↔ s.Issues c p

structure Retains (s t : Store) : Prop where
  parted : t.Parted
  region : s.Stays t
  issues : ∀ b p, t.Issues b p ↔ s.Issues b p

structure Handles (s : Store) (b : Backend) (p : Nat) : Prop where
  free : s.Routes (giveBack p) (Heap.giveBack p) (Arena.giveBack p) b
  resize : ∀ n, s.Routes (resizeBlock p n) (Heap.resize p n) (Arena.resize p n) b
  freed : (giveBack p).Ends s fun _ t => s.Swaps t b p none
  resized : s.Outlying → ∀ n, (resizeBlock p n).Settles s (fun _ t => s.Retains t) fun q t => s.Swaps t b p (some q)

def Rejects (s : Store) (p : Nat) : Prop :=
  (giveBack p).Yields s (.error (.error (.invalidPointer p))) s ∧
    ∀ n, (resizeBlock p n).Yields s (.error (.error (.invalidPointer p))) s

variable {s t : Store} {a a' : Arena} {b c : Backend} {p q n j gone : Nat} {r : HeapRequest}

section Parted

lemma stays_of_eq (h : t.pool = s.pool) : s.Stays t := fun a ha => ⟨a, h ▸ ha, rfl⟩

lemma Parted.retains_self (hs : s.Parted) : s.Retains s := ⟨hs, stays_of_eq rfl, fun _ _ => Iff.rfl⟩

end Parted

section Routes

lemma Parted.routes (hs : s.Parted) (hp : s.Names b p j) : s.Routes (giveBack p) (Heap.giveBack p) (Arena.giveBack p) b ∧
    ∀ n, s.Routes (resizeBlock p n) (Heap.resize p n) (Arena.resize p n) b := by
  obtain ⟨x, hroute, hx⟩ := hs.route hp
  cases b with
  | heap =>
    obtain ⟨rfl, _⟩ := hx
    exact ⟨run_bind_ok hroute _, fun n => run_bind_ok hroute _⟩
  | pool =>
    obtain ⟨a, rfl, ha, _⟩ := hx
    exact ⟨⟨a, ha, run_bind_ok hroute _⟩, fun n => ⟨a, ha, run_bind_ok hroute _⟩⟩

lemma onPool_still {α : Type} {x : Action Arena α} {r : Except Stop α} (ha : s.pool = some a) (hx : x.Yields a r a) :
    (onPool a x).Yields s r s := by
  have hself : ({ s with pool := some a } : Store) = s := by rw [← ha]
  have hzoom : (onPool a x).Yields s r { s with pool := some a } := yields_zoom hx
  rwa [hself] at hzoom

lemma Parted.rejects (hs : s.Parted) (ha : s.pool = some a) (hp : a.region.Covers p) (hnot : ¬s.Issues .pool p) :
    s.Rejects p := by
  obtain ⟨l, hl⟩ := hs.layout a ha
  have hnull : p ≠ 0 := (Nat.lt_of_lt_of_le hl.placed.base_pos hp.1).ne'
  have hfree (k : Nat) : ¬a.Usable p k := fun hk => hnot (issues_pool.mpr ⟨a, ha, k, hk⟩)
  cases howns : (a.tiling l).owns p with
  | true =>
    have hroute := yields_of_run (route_owned ha ((Arena.owns_eq hl p).trans (congrArg Except.ok howns)))
    exact ⟨hroute.bind (onPool_still ha (hl.giveBack_refused hnull hfree)),
      fun n => hroute.bind (onPool_still ha (hl.resize_refused hnull hfree n))⟩
  | false =>
    have hroute := yields_of_run (route_inside ha hl ((Arena.owns_eq hl p).trans (congrArg Except.ok howns)) hp)
    exact ⟨hroute.bind_error, fun n => hroute.bind_error⟩

end Routes

section Swaps

lemma Parted.retains_heap (hs : s.Parted) {h : Heap} (hh : h.blocks = s.heap.blocks) :
    s.Retains { s with heap := h } := by
  have hheap (p : Nat) : ({ s with heap := h } : Store).Issues .heap p ↔ s.Issues .heap p := by
    simp only [Issues, ledger, Heap.ledger, hh]
  refine ⟨⟨hs.layout, fun p hp => hs.blocks p ((hheap p).mp hp)⟩, stays_of_eq rfl, fun b p => ?_⟩
  cases b with
  | heap => exact hheap p
  | pool => exact Iff.rfl

lemma Parted.swaps_pool (hs : s.Parted) (ha : s.pool = some a) {made : Option (Nat × Nat)}
    (h : a.Trades a' gone made) : s.Swaps { s with pool := some a' } .pool gone (made.map Prod.fst) where
  parted := by
    refine ⟨?_, fun p hp => ⟨(hs.blocks p hp).1, ?_⟩⟩
    · rintro _ ⟨⟩
      exact h.layout
    · rintro _ ⟨⟩
      rw [h.region]
      exact (hs.blocks p hp).2 a ha
  region := by
    intro _ heq
    obtain rfl := Option.some.inj (ha.symm.trans heq)
    exact ⟨a', rfl, h.region⟩
  issues p := by
    have htrade (k : Nat) : a'.Usable p k ↔ a.Usable p k ∧ p ≠ gone ∨ made = some (p, k) := h.trade.live p k
    simp only [issues_pool, Option.some.injEq, exists_eq_left', ha, htrade, exists_or, exists_and_right,
      Option.map_eq_some_iff, Prod.exists, exists_eq_right]
  others
    | .heap, _ => fun _ => Iff.rfl
    | .pool, hc => absurd rfl hc

lemma Parted.swaps_met (hs : s.Parted) (hout : s.Outlying) (hr : s.heap.Admits r) (hq : q ∈ (s.heap.answer r).address) :
    s.Swaps { s with heap := s.heap.met r q } .heap (r.replaced?.getD 0) (some q) := by
  have hissues (p : Nat) : ({ s with heap := s.heap.met r q } : Store).Issues .heap p ↔
      s.Issues .heap p ∧ p ≠ r.replaced?.getD 0 ∨ some q = some p := by
    change (∃ m, (s.heap.met r q).blocks[p]? = some m) ↔ _
    simp only [Heap.met, Heap.blocks_met]
    by_cases hp : p = q
    · simp [hp]
    · simp only [if_neg hp, exists_and_right, Option.some.injEq, Ne.symm hp, or_false]
      exact and_congr_right fun hold => Heap.replaced_ne_iff (hs.pos (b := .heap) hold)
  refine ⟨⟨hs.layout, fun p hp => ?_⟩, stays_of_eq rfl, hissues, ?_⟩
  · rcases (hissues p).mp hp with ⟨hold, _⟩ | heq
    · exact hs.blocks p hold
    · obtain rfl := Option.some.inj heq
      exact hout r hr q hq
  · rintro (_ | _) hc p
    · exact absurd rfl hc
    · exact Iff.rfl

lemma Parted.swaps_giveBack (hs : s.Parted) (p : Nat) :
    s.Swaps { s with heap := { s.heap with blocks := s.heap.blocks.erase p } } .heap p none := by
  have hissues (q : Nat) : ({ s with heap := { s.heap with blocks := s.heap.blocks.erase p } } : Store).Issues .heap q ↔
      s.Issues .heap q ∧ q ≠ p ∨ none = some q := by
    simp only [reduceCtorEq, or_false, Issues, ← exists_and_right]
    exact exists_congr fun m => ((Heap.giveBack_trade s.heap p).live q m).trans (by simp [ledger])
  refine ⟨⟨hs.layout, fun q hq => ?_⟩, stays_of_eq rfl, hissues, ?_⟩
  · exact hs.blocks q (((hissues q).mp hq).resolve_right (Option.some_ne_none q).symm).1
  · rintro (_ | _) hc q
    · exact absurd rfl hc
    · exact Iff.rfl

lemma Parted.request (hs : s.Parted) (hout : s.Outlying) (hr : s.heap.Admits r) :
    (onHeap (Heap.request r)).Settles s (fun _ t => s.Retains t) fun q t =>
      s.Swaps t .heap (r.replaced?.getD 0) (some q) := by
  refine (Heap.request_answers s.heap r).zoom ?_ ?_
  · rintro _ _ ⟨_, rfl⟩
    exact hs.retains_heap rfl
  · rintro q _ ⟨hq, rfl⟩
    exact hs.swaps_met hout hr hq

end Swaps

section Requests

lemma Parted.allocate (hs : s.Parted) (hout : s.Outlying) (n : Nat) :
    (allocate n).Settles s (fun _ t => s.Retains t) fun q t => s.Swaps t s.serving 0 (some q) := by
  cases ha : s.pool with
  | none =>
    rw [serving_eq_heap_iff.mpr ha]
    apply yields_get.bind_settles
    rw [ha]
    exact hs.request hout (r := .zeroed (max n 1)) (Nat.le_max_right n 1)
  | some a =>
    rw [serving_eq_pool_iff.mpr ⟨a, ha⟩]
    refine (hs.allocate_pool ha n).mono ?_ ?_
    · rintro _ _ rfl
      exact hs.retains_self
    · rintro q _ ⟨a', rfl, k, _, htrades, _⟩
      exact hs.swaps_pool ha htrades

lemma Parted.resizeBlock (hs : s.Parted) (hout : s.Outlying) (hp : s.Names b p j) (n : Nat) :
    (resizeBlock p n).Settles s (fun _ t => s.Retains t) fun q t => s.Swaps t b p (some q) := by
  cases b with
  | heap =>
    obtain ⟨_, hroute, rfl, hp⟩ := hs.route hp
    apply (yields_of_run hroute).bind_settles
    have hnull : s.heap.blocks[0]? = none :=
      Option.eq_none_iff_forall_ne_some.mpr fun m hm => hs.pos (b := .heap) ⟨m, hm⟩ rfl
    obtain ⟨r, hr, rfl, hresize⟩ := Heap.resize_requests hnull hp n
    exact (settles_congr (zoom_congr hresize)).mpr (hs.request hout hr)
  | pool =>
    obtain ⟨a, ha, hp⟩ := hp.pool
    refine (hs.resize_pool ha hp n).mono ?_ ?_
    · rintro _ _ rfl
      exact hs.retains_self
    · rintro q _ ⟨a', rfl, k, _, htrades, _⟩
      exact hs.swaps_pool ha htrades

lemma Parted.giveBack (hs : s.Parted) (hp : s.Names b p j) :
    (giveBack p).Ends s fun _ t => s.Swaps t b p none := by
  cases b with
  | heap =>
    obtain ⟨_, hroute, rfl, _⟩ := hs.route hp
    apply (yields_of_run hroute).bind_ends
    exact ⟨(), _, ⟨rfl, rfl⟩, hs.swaps_giveBack p⟩
  | pool =>
    obtain ⟨a, ha, hp⟩ := hp.pool
    obtain ⟨x, _, hyields, a', rfl, htrades⟩ := hs.giveBack_pool ha hp
    exact ⟨x, _, hyields, hs.swaps_pool ha htrades⟩

lemma Parted.handles (hs : s.Parted) (hp : s.Issues b p) : s.Handles b p := by
  obtain ⟨j, hj⟩ := hp
  have hnames : s.Names b p j := .inl hj
  obtain ⟨hfree, hresize⟩ := hs.routes hnames
  exact ⟨hfree, hresize, hs.giveBack hnames, fun hout n => hs.resizeBlock hout hnames n⟩

lemma Parted.enabled (hs : s.Parted) (hpool : s.pool = none) (ha : a.Fresh)
    (hout : ∀ p, s.Issues .heap p → ¬a.region.Covers p) : s.Retains { s with pool := some a } := by
  refine ⟨⟨?_, fun p hp => ⟨(hs.blocks p hp).1, ?_⟩⟩, ?_, ?_⟩
  · rintro _ ⟨⟩
    exact ⟨[], ha.layout⟩
  · rintro _ ⟨⟩
    exact hout p hp
  · rw [Stays, hpool]
    exact nofun
  · rintro (_ | _) p
    · exact Iff.rfl
    · simp only [issues_pool, hpool, reduceCtorEq, false_and, exists_false, iff_false]
      rintro ⟨_, ⟨⟩, k, hk⟩
      exact absurd (ha.layout.usable_iff.mp hk) List.not_mem_nil

end Requests

end Store

end BitStore
