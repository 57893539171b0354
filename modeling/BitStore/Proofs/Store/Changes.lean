import BitStore.Store.Bits
import BitStore.Proofs.Store.Backends

namespace BitStore

open BitStore.Action

namespace Store

structure Spares (s t : Store) (p : Nat) : Prop where
  live : ∀ c r m, (s.ledger c).live r m → r ≠ p → (t.ledger c).live r m
  byte : ∀ c r m, (s.ledger c).live r m → r ≠ p → ∀ i < m, (t.ledger c).byte r i = (s.ledger c).byte r i

structure Keeps (s t : Store) : Prop where
  sound : t.Sound
  live : ∀ c, (t.ledger c).live = (s.ledger c).live
  byte : ∀ c r m, (s.ledger c).live r m → ∀ i < m, (t.ledger c).byte r i = (s.ledger c).byte r i

structure Grows (s t : Store) (added : Option Region) : Prop where
  heap : s.heap.Grows t.heap
  region : ∀ a ∈ t.pool, a.region ∈ added ∨ a.region ∈ s.pool.map Arena.region

structure Vacant (s : Store) (r : Region) : Prop where
  placed : r.Placed
  clear : ∀ p k, s.heap.blocks[p]? = some k → Clear (p, k) (r.base, r.len)

variable {s t : Store} {a : Arena} {b c : Backend} {p q m k gone : Nat} {made : Option (Nat × Nat)} {v : BitVector}

lemma Trades.live_other (h : s.Trades t b gone made) (hp : (s.ledger c).live p m) (hne : p ≠ gone) :
    (t.ledger c).live p m := by
  by_cases hc : c = b
  · subst hc
    exact (h.trade.live p m).mpr (.inl ⟨hp, hne⟩)
  · rw [h.others c hc]
    exact hp

lemma Trades.ne_made (h : s.Trades t b gone (some (q, k))) (hp : (s.ledger c).live p m) (hne : p ≠ gone) :
    p ≠ q := by
  by_cases hc : c = b
  · subst hc
    exact h.trade.ne_of_live hp hne
  · rintro rfl
    exact hc (h.sound.backend_unique (h.live_other hp hne) h.trade.mem)

lemma Trades.spares (h : s.Trades t b gone made) : s.Spares t gone where
  live _ _ _ hp hne := h.live_other hp hne
  byte c p m hp hne i hi := by
    by_cases hc : c = b
    · subst hc
      exact h.trade.kept p m hp hne i hi
    · rw [h.others c hc]

lemma Writes.spares (h : s.Writes t b p) : s.Spares t p where
  live c r m hr _ := by
    rw [h.live c]
    exact hr
  byte c r m hr hne i hi := by
    by_cases hc : c = b
    · subst hc
      exact h.write.kept r m hr hne i hi
    · rw [h.others c hc]

lemma Keeps.spares (h : s.Keeps t) (p : Nat) : s.Spares t p where
  live c r m hr _ := by
    rw [h.live c]
    exact hr
  byte c r m hr _ := h.byte c r m hr

lemma Frame.grows (h : s.Frame t b) : s.Grows t none where
  heap := h.heap
  region a ha := by
    rw [← h.region, ha]
    exact .inr rfl

lemma Refused.grows (h : s.Refused t) : s.Grows t none where
  heap := h.heap.grows
  region a ha := by
    rw [← h.pool, ha]
    exact .inr rfl

lemma Grows.withProfiler {added : Option Region} (h : s.Grows t added) (profiler : Profiler) :
    s.Grows { t with profiler := profiler } added :=
  ⟨h.heap, h.region⟩

lemma grows_self (s : Store) : s.Grows s none where
  heap := .refl _
  region a ha := by
    rw [ha]
    exact .inr rfl

lemma Sound.keeps_self (hs : s.Sound) : s.Keeps s := ⟨hs, fun _ => rfl, fun _ _ _ _ _ _ => rfl⟩

lemma Sound.withProfiler (hs : s.Sound) (profiler : Profiler) : ({ s with profiler := profiler } : Store).Sound :=
  ⟨hs.tidy, hs.layout, hs.clear⟩

lemma Spares.withProfiler (h : s.Spares t p) (profiler : Profiler) : s.Spares { t with profiler := profiler } p :=
  ⟨h.live, h.byte⟩

lemma Refused.keeps (hs : s.Sound) (h : s.Refused t) : s.Keeps t where
  sound := by
    refine ⟨h.heap.tidy hs.tidy, ?_, ?_⟩
    · rw [h.pool]
      exact hs.layout
    · rw [h.pool, h.heap.blocks]
      exact hs.clear
  live
    | .heap => by
      funext p m
      exact congrArg (fun blocks : Std.HashMap Nat Nat => blocks[p]? = some m) h.heap.blocks
    | .pool => by rw [ledger, ledger, h.pool]
  byte
    | .heap, p, m, hp => h.heap.kept p m hp
    | .pool, _, _, _ => fun _ _ => by rw [ledger, ledger, h.pool]

lemma Spares.byte_eq (h : s.Spares t q) (hs : s.Sound) (ht : t.Sound) (hp : (s.ledger c).live p m) (hne : p ≠ q)
    {i : Nat} (hi : i < m) : t.byte p i = s.byte p i := by
  rw [ht.byte_eq (h.live c p m hp hne), hs.byte_eq hp, h.byte c p m hp hne i hi]

lemma Spares.words_eq (h : s.Spares t q) (hs : s.Sound) (ht : t.Sound)
    (hv : ∀ p ∈ v.data, ∃ c m, (s.ledger c).live p m ∧ 8 * v.wordCount ≤ m ∧ p ≠ q) : t.words v = s.words v := by
  rw [words, words]
  cases hdata : v.data with
  | none => rfl
  | some p =>
    obtain ⟨c, m, hp, hm, hne⟩ := hv p hdata
    refine List.map_congr_left fun i hi => ?_
    have hi := List.mem_range.mp hi
    refine word_congr (hs.aligned hp) (ht.aligned (h.live c p m hp hne)) fun k hk => ?_
    exact h.byte_eq hs ht hp hne (by omega)

section Pool

lemma enablePool_again (ha : s.pool = some a) (m : Machine) (source : PageSource) (size : Nat) :
    (enablePool m source size).run s = ⟨.error (.error .poolAlreadyEnabled), s, []⟩ := by
  have hget : (Action.get : Action Store Store).run s = ⟨.ok s, s, []⟩ := rfl
  rw [enablePool, run_bind, hget]
  simp only [poolEnabled, ha, Option.isSome_some, if_true]
  rfl

lemma enablePool_cases (m : Machine) (source : PageSource) (size : Nat) (s : Store) :
    (∃ e, (enablePool m source size).Yields s (.error e) s) ∨ s.pool = none ∧
      ∃ a, ((Arena.reserve m source size).run s).result = .ok a ∧
        (enablePool m source size).Yields s (.ok ()) { s with pool := some a } := by
  cases hpool : s.pool with
  | some a => exact .inl ⟨_, yields_of_run (enablePool_again hpool m source size)⟩
  | none =>
    have hbody (r : Except Stop Unit) (t : Store) (h : (do
        let a ← Arena.reserve m source size
        let stats ← a.stats
        Action.modify fun s => { s with pool := some a }
        Action.say (.poolEnabled stats.reserved) : Action Store Unit).Yields s r t) :
        (enablePool m source size).Yields s r t := by
      apply yields_get.bind
      simpa only [poolEnabled, hpool, Option.isSome_none, Bool.false_eq_true, if_false] using h
    have hreserve : (Arena.reserve m source size).Yields s ((Arena.reserve m source size).run s).result s :=
      ⟨rfl, Arena.reserve_still m source size s⟩
    cases hresult : ((Arena.reserve m source size).run s).result with
    | error e =>
      rw [hresult] at hreserve
      exact .inl ⟨e, hbody _ _ hreserve.bind_error⟩
    | ok a =>
      rw [hresult] at hreserve
      cases hstats : a.stats with
      | error f =>
        have hfault : (liftM a.stats : Action Store ArenaStats).Yields s (.error (.fault f)) s := by
          rw [hstats]
          exact ⟨rfl, rfl⟩
        exact .inl ⟨_, hbody _ _ (hreserve.bind hfault.bind_error)⟩
      | ok stats =>
        exact .inr ⟨rfl, a, rfl, hbody _ _ (hreserve.bind ((yields_lift hstats).bind ⟨rfl, rfl⟩))⟩

lemma Sound.enabled (hs : s.Sound) (hpool : s.pool = none) (ha : a.Fresh) (hregion : s.Vacant a.region) :
    s.Keeps { s with pool := some a } := by
  have hlive : ({ s with pool := some a } : Store).ledger .pool = a.ledger := rfl
  have hnone (p m : Nat) : ¬(s.ledger .pool).live p m := fun h => by
    obtain ⟨_, ha, _⟩ := live_pool.mp h
    cases hpool.symm.trans ha
  refine ⟨⟨hs.tidy, ?_, ?_⟩, ?_, ?_⟩
  · rintro _ ⟨⟩
    exact ⟨[], ha.layout⟩
  · rintro _ ⟨⟩
    exact hregion.clear
  · rintro (_ | _)
    · rfl
    · -- Neither the pool that was not there nor the new one has any allocations.
      funext p m
      rw [hlive, eq_iff_iff]
      refine ⟨fun h => ?_, fun h => (hnone p m h).elim⟩
      exact absurd (ha.layout.usable_iff.mp h) (List.not_mem_nil)
  · rintro (_ | _) p m hp
    · exact fun _ _ => rfl
    · exact (hnone p m hp).elim

end Pool

end Store

end BitStore
