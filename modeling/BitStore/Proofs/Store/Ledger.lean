import BitStore.Proofs.Arena.Failure

namespace BitStore

open BitStore.Action Segment

structure Ledger where
  live : Nat → Nat → Prop
  byte : Nat → Nat → UInt8

namespace Ledger

/-- Drops the allocation at `gone` for the one that is made. Null stands for none dropped. -/
structure Trade (b c : Ledger) (gone : Nat) (made : Option (Nat × Nat)) : Prop where
  live : ∀ p m, c.live p m ↔ b.live p m ∧ p ≠ gone ∨ made = some (p, m)
  fresh : ∀ q k, made = some (q, k) → q ≠ gone → ∀ m, ¬b.live q m
  kept : ∀ p m, b.live p m → p ≠ gone → ∀ i < m, c.byte p i = b.byte p i

structure Write (b c : Ledger) (p : Nat) : Prop where
  live : c.live = b.live
  kept : ∀ r m, b.live r m → r ≠ p → ∀ i < m, c.byte r i = b.byte r i

def vacant : Ledger := ⟨fun _ _ => False, fun _ _ => 0⟩

variable {b c d : Ledger} {gone q k : Nat} {made : Option (Nat × Nat)}

lemma Trade.same (hnull : ∀ m, ¬b.live 0 m) : b.Trade b 0 none where
  live p m := by
    simp only [reduceCtorEq, or_false]
    exact ⟨fun h => ⟨h, fun hp => hnull m (hp ▸ h)⟩, fun h => h.1⟩
  fresh q k h := by cases h
  kept _ _ _ _ _ _ := rfl

lemma Trade.mem (h : b.Trade c gone (some (q, k))) : c.live q k := (h.live q k).mpr (.inr rfl)

lemma Trade.ne_of_live (h : b.Trade c gone (some (q, k))) {p m : Nat} (hp : b.live p m) (hne : p ≠ gone) :
    p ≠ q := by
  rintro rfl
  exact h.fresh p k rfl hne m hp

lemma Trade.write (h : b.Trade c gone (some (q, k))) (hw : c.Write d q) : b.Trade d gone (some (q, k)) where
  live p m := by rw [hw.live]; exact h.live p m
  fresh := h.fresh
  kept p m hp hne i hi := by
    have hlive : c.live p m := (h.live p m).mpr (.inl ⟨hp, hne⟩)
    rw [hw.kept p m hlive (h.ne_of_live hp hne) i hi, h.kept p m hp hne i hi]

end Ledger

lemma mem_rest_iff {ps rest : List (Nat × Nat)} {p j : Nat} (hps : (ps.map Prod.fst).Nodup)
    (hperm : ps.Perm ((p, j) :: rest)) (r m : Nat) : (r, m) ∈ rest ↔ (r, m) ∈ ps ∧ r ≠ p := by
  have hnodup := (hperm.map Prod.fst).nodup_iff.mp hps
  rw [List.map_cons, List.nodup_cons] at hnodup
  rw [hperm.mem_iff, List.mem_cons, Prod.mk.injEq]
  constructor
  · intro h
    refine ⟨.inr h, ?_⟩
    rintro rfl
    exact hnodup.1 (List.mem_map.mpr ⟨(r, m), h, rfl⟩)
  · rintro ⟨⟨rfl, _⟩ | h, hr⟩
    · exact absurd rfl hr
    · exact h

namespace Arena

def ledger (a : Arena) : Ledger := ⟨a.Usable, fun p i => a.byte (p + i)⟩

structure Trades (a t : Arena) (gone : Nat) (made : Option (Nat × Nat)) : Prop where
  layout : ∃ l, t.Layout l
  region : t.region = a.region
  trade : a.ledger.Trade t.ledger gone made

variable {a t : Arena} {l l' : List Node} {gone p q n : Nat} {made : Option (Nat × Nat)}
  {rest : List (Nat × Nat)}

lemma Layout.trades (ht : t.Layout l') (hregion : t.region = a.region)
    (hafter : (t.tiling l').payloads.Perm (made.toList ++ rest))
    (hrest : ∀ r m, (r, m) ∈ rest ↔ a.Usable r m ∧ r ≠ gone)
    (hbytes : ∀ r m, a.Usable r m → r ≠ gone → ∀ i < m, t.byte (r + i) = a.byte (r + i)) :
    a.Trades t gone made := by
  refine ⟨⟨l', ht⟩, hregion, ⟨fun r m => ?_, ?_, hbytes⟩⟩
  · change t.Usable r m ↔ a.Usable r m ∧ r ≠ gone ∨ _
    rw [ht.usable_iff, hafter.mem_iff, List.mem_append, hrest, or_comm, Option.mem_toList]
  · rintro q k rfl hq m hm
    have hnodup := (hafter.map Prod.fst).nodup_iff.mp ht.tiling_sized.starts
    exact (List.nodup_cons.mp hnodup).1 (List.mem_map.mpr ⟨(q, m), (hrest q m).mpr ⟨hm, hq⟩, rfl⟩)

lemma allocate_trades (ha : a.Layout l) (n : Nat) :
    (allocate n).Settles a (fun _ t => t = a) fun q t => ∃ k, n ≤ k ∧ a.Trades t 0 (some (q, k)) := by
  have hfollows := allocate_follows ha n
  cases halloc : (a.tiling l).allocate n with
  | error e =>
    rw [halloc] at hfollows
    exact .inl ⟨e, a, hfollows, rfl⟩
  | ok r =>
    obtain ⟨q, u⟩ := r
    rw [halloc] at hfollows
    obtain ⟨_, t, hyields, rfl, l', ht, rfl, hframe, _⟩ := hfollows
    obtain ⟨_, _, k, hk, hperm⟩ := Tiling.allocate_payloads halloc
    refine .inr ⟨_, t, hyields, k, (Tiling.le_sizeFor n).trans hk.1, ?_⟩
    have hrest (r m : Nat) : (r, m) ∈ (a.tiling l).payloads ↔ a.Usable r m ∧ r ≠ 0 := by
      rw [← ha.usable_iff]
      exact ⟨fun h => ⟨h, ha.usable_pos h⟩, fun h => h.1⟩
    refine ht.trades hframe.region hperm hrest fun r m _ _ i _ => ?_
    rw [byte, byte, hframe.region, hframe.memory]

def Names (a : Arena) (p j : Nat) : Prop := a.Usable p j ∨ p = 0 ∧ j = 0

lemma giveBack_trades (ha : a.Layout l) {j : Nat} (hp : a.Names p j) :
    (giveBack p).Ends a fun _ t => a.Trades t p none := by
  rcases hp with hp | ⟨rfl, _⟩
  swap
  · exact ⟨(), a, ⟨rfl, rfl⟩, ⟨l, ha⟩, rfl, .same fun m hm => ha.usable_pos hm rfl⟩
  have hfollows := giveBack_follows ha p
  obtain ⟨u, hgive⟩ := Tiling.giveBack_ok (ha.usable_iff.mp hp)
  rw [hgive] at hfollows
  obtain ⟨_, t, hyields, _, l', ht, rfl, hframe⟩ := hfollows
  obtain ⟨_, _, k, hperm⟩ := Tiling.giveBack_payloads (ha.usable_pos hp) hgive
  have hrest (r m : Nat) : (r, m) ∈ (t.tiling l').payloads ↔ a.Usable r m ∧ r ≠ p := by
    rw [ha.usable_iff]
    exact mem_rest_iff ha.tiling_sized.starts hperm r m
  refine ⟨_, t, hyields, ht.trades hframe.region (.refl _) hrest fun r m _ _ i _ => ?_⟩
  rw [byte, byte, hframe.region, hframe.memory]

lemma resize_trades (ha : a.Layout l) (n : Nat) {j : Nat} (hp : a.Names p j) :
    (resize p n).Settles a (fun _ t => t = a) fun q t => ∃ k, n ≤ k ∧ a.Trades t p (some (q, k)) ∧
      ∀ i < min j n, t.byte (q + i) = a.byte (p + i) := by
  rcases hp with hp | ⟨rfl, rfl⟩
  swap
  · refine (allocate_trades ha n).mono (fun _ _ h => h) ?_
    rintro q t ⟨k, hk, ht⟩
    exact ⟨k, hk, ht, fun i hi => by omega⟩
  have hnull := ha.usable_pos hp
  have hfollows := resize_follows ha p n
  cases hresize : (a.tiling l).resize p n with
  | error e =>
    rw [hresize] at hfollows
    exact .inl ⟨e, a, hfollows, rfl⟩
  | ok r =>
    obtain ⟨q, u⟩ := r
    rw [hresize] at hfollows
    obtain ⟨_, t, hyields, rfl, l', ht, rfl, _⟩ := hfollows
    obtain ⟨hregion, j', k, rest, hbefore, hafter, hk, _⟩ := Tiling.resize_payloads ha.tiling_sized hnull hresize
    obtain ⟨hcarries, hcopied⟩ :=
      Tiling.resize_carries ha.tiling_sized ht.tiling_sized (.refl _) hnull hresize
    refine .inr ⟨_, t, hyields, k, (Tiling.le_sizeFor n).trans hk.1, ?_, hcopied j (ha.usable_iff.mp hp)⟩
    refine ht.trades hregion hafter ?_ fun r m hr hne i hi => ?_
    · simp only [ha.usable_iff]
      exact mem_rest_iff ha.tiling_sized.starts hbefore
    · have hmem := ha.usable_iff.mp hr
      refine hcarries.bytes r m hmem (List.mem_cons_of_mem _ ?_) i hi
      exact (List.mem_erase_of_ne hne).mpr (List.mem_map_of_mem hmem)

lemma usable_withMemory (ha : a.Layout l) (m : Memory) : ({ a with memory := m } : Arena).Usable = a.Usable := by
  funext p k
  rw [eq_iff_iff, (ha.withMemory m).usable_iff, ha.usable_iff]
  rfl

lemma write_ledger (ha : a.Layout l) {k : Nat} (hp : a.Usable p k) {m : Memory}
    (hm : ∀ o, ¬(p - a.region.base ≤ o ∧ o < p - a.region.base + k) → m.byte o = a.memory.byte o) :
    a.ledger.Write ({ a with memory := m } : Arena).ledger p where
  live := usable_withMemory ha m
  kept r j hr hne i hi := by
    have hpmem := ha.usable_iff.mp hp
    have hrmem := ha.usable_iff.mp hr
    have hpbase : a.region.base ≤ p := (ha.tiling_sized.payload hpmem).1
    have hrbase : a.region.base ≤ r := (ha.tiling_sized.payload hrmem).1
    have hclear := Tiling.payloads_clear hrmem hpmem fun heq => hne (congrArg Prod.fst heq)
    change m.byte (r + i - a.region.base) = a.memory.byte (r + i - a.region.base)
    refine hm _ ?_
    simp only [Clear] at hclear
    omega

lemma Trades.write (h : a.Trades t gone (some (q, n))) {m : Memory}
    (hm : ∀ o, ¬(q - t.region.base ≤ o ∧ o < q - t.region.base + n) → m.byte o = t.memory.byte o) :
    a.Trades { t with memory := m } gone (some (q, n)) := by
  obtain ⟨l', ht⟩ := h.layout
  exact ⟨⟨l', ht.withMemory m⟩, h.region, h.trade.write (write_ledger ht h.trade.mem hm)⟩

lemma allocate_cleared (ha : a.Layout l) (n : Nat) :
    (do
      let p ← allocate n
      modify fun a => { a with memory := a.memory.clear ((p - a.region.base) / 8) n }
      return p : Action Arena Nat).Settles a (fun _ t => t = a) fun q t => ∃ k, n ≤ k ∧
        a.Trades t 0 (some (q, k)) ∧ ∀ i < n, t.byte (q + i) = 0 := by
  refine (allocate_trades ha n).bind ?_
  rintro q t ⟨k, hk, htrades⟩
  obtain ⟨l', ht⟩ := htrades.layout
  obtain ⟨hbase, hmod, _⟩ := ht.tiling_sized.payload (ht.usable_iff.mp htrades.trade.mem)
  have hword : 8 * ((q - t.region.base) / 8) = q - t.region.base :=
    Nat.mul_div_cancel' (Nat.dvd_of_mod_eq_zero hmod)
  refine .inr ⟨q, _, ⟨rfl, rfl⟩, k, hk, htrades.write fun o ho => ?_, fun i hi => ?_⟩
  · rw [Memory.byte_clear, hword, if_neg (by omega)]
  · change (t.memory.clear ((q - t.region.base) / 8) n).byte (q + i - t.region.base) = 0
    rw [Memory.byte_clear, hword, if_pos]
    change t.region.base ≤ q at hbase
    omega

end Arena

end BitStore
