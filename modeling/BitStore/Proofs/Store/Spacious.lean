import BitStore.Proofs.Store.Deeds

namespace BitStore

open BitStore.Action

namespace Heap

structure Spread (h : Heap) : Prop where
  platform : h.platform = .spacious
  blocks : ∀ p m, h.blocks[p]? = some m → ∃ i < h.requests, p = Platform.place i ∧ m < Platform.spacing

variable {h u : Heap} {r : HeapRequest} {memory : Memory} {i p q m n : Nat}

lemma place_mod (i : Nat) : Platform.place i % 8 = 0 := by
  simp only [Platform.place, Platform.spacing]
  omega

lemma place_le (hi : i < n) (hm : m < Platform.spacing) : Platform.place i + m ≤ Platform.place n := by
  simp only [Platform.place, Platform.spacing] at hm ⊢
  omega

lemma place_zero_le (i : Nat) : Platform.place 0 ≤ Platform.place i := by
  simp only [Platform.place, Platform.spacing]
  omega

lemma spacious_address : q ∈ (Platform.spacious.answer i memory r).address ↔
    q = Platform.place i ∧ r.size < Platform.spacing := by
  simp only [Platform.spacious]
  split
  · simp; omega
  · next hsize =>
    simp only [Nat.not_le.mp hsize, and_true]
    cases r <;> simp [eq_comm]

lemma spacious_below {a : Nat} (ha : a < Platform.place i) :
    (Platform.spacious.answer i memory r).memory.byte a = memory.byte a := by
  have hmod := place_mod i
  simp only [Platform.spacious]
  split
  · rfl
  · cases r with
    | zeroed n => simp only [Memory.byte_clear]; rw [if_neg (by omega)]
    | fresh n => rfl
    | resized p old n => simp only [Memory.byte_copyWords]; rw [if_neg (by omega)]

lemma Spread.grows (hh : h.Spread) (hu : h.Grows u) : u.Spread := by
  refine ⟨hu.platform.trans hh.platform, fun p m hp => ?_⟩
  rcases hu.blocks p m hp with hp | ⟨i, memory, r, _, hi, rfl, hq⟩
  · obtain ⟨i, hi, hplace⟩ := hh.blocks p m hp
    exact ⟨i, hi.trans_le hu.requests, hplace⟩
  · rw [hh.platform, spacious_address] at hq
    exact ⟨i, hi, hq⟩

theorem Spread.honest (hh : h.Spread) (hr : h.Admits r) : h.Honest r (h.answer r) := by
  rw [answer, hh.platform]
  have hmod := place_mod h.requests
  have hbelow {p m : Nat} (hp : h.blocks[p]? = some m) : p + m ≤ Platform.place h.requests := by
    obtain ⟨i, hi, rfl, hm⟩ := hh.blocks p m hp
    exact place_le hi hm
  refine ⟨fun p m hp _ i hi => ?_, fun q hq => ?_, fun q hq p m hp _ => ?_, fun q hq n hzeroed i hi => ?_,
    fun q hq p old n hresized i hi => ?_⟩
  · have hle := hbelow hp
    exact spacious_below (by omega)
  · rw [(spacious_address.mp hq).1]
    exact ⟨Nat.lt_of_lt_of_le (by decide) (place_zero_le _), hmod⟩
  · rw [(spacious_address.mp hq).1]
    exact .inr (hbelow hp)
  · subst hzeroed
    obtain ⟨rfl, hsize⟩ := spacious_address.mp hq
    simp only [Platform.spacious, if_neg (Nat.not_le.mpr hsize), Memory.byte_clear]
    rw [if_pos (by omega)]
  · subst hresized
    obtain ⟨rfl, hsize⟩ := spacious_address.mp hq
    obtain ⟨j, _, rfl, _⟩ := hh.blocks p old hr.1
    have hmod' := place_mod j
    simp only [Platform.spacious, if_neg (Nat.not_le.mpr hsize), Memory.byte_copyWords]
    rw [if_pos (by omega)]
    congr 1
    omega

end Heap

namespace Store

structure Spread (s : Store) : Prop where
  heap : s.heap.Spread
  low : ∀ a ∈ s.pool, a.region.base + a.region.len ≤ Platform.place 0

variable {s t : Store} {added : Option Region}

lemma Spread.grows (hs : s.Spread) (ht : s.Grows t added)
    (hadded : ∀ r ∈ added, r.base + r.len ≤ Platform.place 0) : t.Spread := by
  refine ⟨hs.heap.grows ht.heap, fun a ha => ?_⟩
  rcases ht.region a ha with hnew | hold
  · exact hadded _ hnew
  · obtain ⟨b, hb, heq⟩ := Option.map_eq_some_iff.mp hold
    rw [← heq]
    exact hs.low b hb

lemma Spread.clear (hs : s.Spread) {r : Region} (hr : r.base + r.len ≤ Platform.place 0) (p k : Nat)
    (hp : s.heap.blocks[p]? = some k) : Clear (p, k) (r.base, r.len) := by
  obtain ⟨i, _, rfl, _⟩ := hs.heap.blocks p k hp
  exact .inr (hr.trans (Heap.place_zero_le i))

theorem Spread.trusted (hs : s.Spread) : s.Trusted where
  honest _ hr := hs.heap.honest hr
  clear r hr q hq a ha := by
    rw [Heap.answer, hs.heap.platform] at hq
    rw [(Heap.spacious_address.mp hq).1]
    exact .inr ((hs.low a ha).trans (Heap.place_zero_le _))

end Store

namespace Workspace

variable {w : Workspace} {d : Deed}

def Plans (w : Workspace) : List Deed → Prop
  | [] => True
  | d :: rest => w.Fair d ∧ (∀ r ∈ d.region? w.store, 0 < r.base ∧ r.base + r.len ≤ Platform.place 0) ∧
    (w.step d).Plans rest

def after (w : Workspace) : List Deed → Workspace
  | [] => w
  | d :: rest => (w.step d).after rest

lemma Reached.after_spread (hw : w.Reached) (hs : w.store.Spread) {deeds : List Deed} (hdeeds : w.Plans deeds) :
    (w.after deeds).Reached ∧ (w.after deeds).store.Spread := by
  induction deeds generalizing w with
  | nil => exact ⟨hw, hs⟩
  | cons d rest ih =>
    obtain ⟨hfair, hlow, hrest⟩ := hdeeds
    have hpermits : w.Permits d := by
      refine ⟨hfair, fun r hr => ⟨⟨(hlow r hr).1, ?_⟩, hs.clear (hlow r hr).2⟩⟩
      exact (hlow r hr).2.trans (by decide)
    have hadvances := hw.secure.step hs.trusted hpermits
    exact ih (hw.step d hs.trusted hpermits) (hs.grows hadvances.grows fun r hr => (hlow r hr).2) hrest

lemma on_spread (now : Nat) : (on .spacious now).store.Spread :=
  ⟨⟨rfl, fun _ _ hp => by cases Std.HashMap.getElem?_empty.symm.trans hp⟩, fun _ ha => by cases ha⟩

theorem reached_spacious {now : Nat} {deeds : List Deed} (hdeeds : (on .spacious now).Plans deeds) :
    ((on .spacious now).after deeds).Reached ∧ ((on .spacious now).after deeds).store.Trusted := by
  obtain ⟨hreached, hspread⟩ := (Reached.start .spacious now).after_spread (on_spread now) hdeeds
  exact ⟨hreached, hspread.trusted⟩

def enablePage : Deed := .enablePool .plain ⟨.heap, .unknown⟩ 4096

lemma enablePage_low (s : Store) :
    ∀ r ∈ enablePage.region? s, 0 < r.base ∧ r.base + r.len ≤ Platform.place 0 := by
  intro r hr
  rw [enablePage, Deed.region?] at hr
  split at hr
  · cases hr
  · cases hr
    decide

def paired : Workspace := (on .spacious 0).after [.resize 0 0 100, enablePage, .resize 0 1 64]

lemma paired_reached : paired.Reached ∧ paired.store.Trusted :=
  reached_spacious ⟨trivial, nofun, trivial, enablePage_low _, trivial, nofun, trivial⟩

end Workspace

end BitStore
