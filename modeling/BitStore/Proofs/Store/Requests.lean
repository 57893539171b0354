import BitStore.Heap
import BitStore.Proofs.Store.Ledger

/-! What is owed to a request is all that is assumed of a platform. -/

namespace BitStore

open BitStore.Action

namespace Heap

def ledger (h : Heap) : Ledger := ⟨fun p m => h.blocks[p]? = some m, fun p i => h.memory.byte (p + i)⟩

def Admits (h : Heap) : HeapRequest → Prop
  | .zeroed n | .fresh n => 0 < n
  | .resized p old n => h.blocks[p]? = some old ∧ 0 < n

/-- What the platform owes to a request. Blocks in use keep their bytes, unless the request replaces them
and is met. A new block is aligned and clear of the others; zeros are asked for or not, and a block that
is resized takes its contents along. -/
structure Honest (h : Heap) (r : HeapRequest) (x : HeapAnswer) : Prop where
  kept : ∀ p m, h.blocks[p]? = some m → x.address = none ∨ r.replaced? ≠ some p →
    ∀ i < m, x.memory.byte (p + i) = h.memory.byte (p + i)
  placed : ∀ q ∈ x.address, 0 < q ∧ q % alignment = 0
  apart : ∀ q ∈ x.address, ∀ p m, h.blocks[p]? = some m → r.replaced? ≠ some p → Clear (q, r.size) (p, m)
  zeroed : ∀ q ∈ x.address, ∀ n, r = .zeroed n → ∀ i < n, x.memory.byte (q + i) = 0
  carried : ∀ q ∈ x.address, ∀ p old n, r = .resized p old n →
    ∀ i < min old n, x.memory.byte (q + i) = h.memory.byte (p + i)

structure Tidy (h : Heap) : Prop where
  placed : ∀ p m, h.blocks[p]? = some m → 0 < p ∧ p % alignment = 0 ∧ 0 < m
  apart : ∀ p m q n, h.blocks[p]? = some m → h.blocks[q]? = some n → p ≠ q → Clear (p, m) (q, n)

structure Grows (h u : Heap) : Prop where
  platform : u.platform = h.platform
  requests : h.requests ≤ u.requests
  blocks : ∀ p m, u.blocks[p]? = some m → h.blocks[p]? = some m ∨ ∃ i memory r, h.requests ≤ i ∧
    i < u.requests ∧ r.size = m ∧ p ∈ (h.platform.answer i memory r).address

structure Refused (h u : Heap) : Prop where
  platform : u.platform = h.platform
  requests : h.requests ≤ u.requests
  blocks : u.blocks = h.blocks
  kept : ∀ p m, h.blocks[p]? = some m → ∀ i < m, u.memory.byte (p + i) = h.memory.byte (p + i)

variable {h u : Heap} {r : HeapRequest} {p q n : Nat}

lemma Grows.refl (h : Heap) : h.Grows h := ⟨rfl, Nat.le_refl _, fun _ _ => .inl⟩

lemma Grows.trans {v : Heap} (hu : h.Grows u) (hv : u.Grows v) : h.Grows v where
  platform := hv.platform.trans hu.platform
  requests := hu.requests.trans hv.requests
  blocks p m hp := by
    rcases hv.blocks p m hp with hp | ⟨i, memory, r, hi, hlt, hr, hq⟩
    · rcases hu.blocks p m hp with hp | ⟨i, memory, r, hi, hlt, hr, hq⟩
      · exact .inl hp
      · exact .inr ⟨i, memory, r, hi, hlt.trans_le hv.requests, hr, hq⟩
    · rw [hu.platform] at hq
      exact .inr ⟨i, memory, r, hu.requests.trans hi, hlt, hr, hq⟩

lemma Refused.refl (h : Heap) : h.Refused h := ⟨rfl, Nat.le_refl _, rfl, fun _ _ _ _ _ => rfl⟩

lemma Refused.grows (hu : h.Refused u) : h.Grows u :=
  ⟨hu.platform, hu.requests, fun _ _ hp => .inl (hu.blocks ▸ hp)⟩

lemma Refused.tidy (hh : h.Tidy) (hu : h.Refused u) : u.Tidy := by
  refine ⟨?_, ?_⟩ <;> rw [hu.blocks]
  · exact hh.placed
  · exact hh.apart

lemma Tidy.null (hh : h.Tidy) (m : Nat) : h.blocks[0]? ≠ some m := fun h0 =>
  absurd (hh.placed 0 m h0).1 (Nat.lt_irrefl 0)

lemma Admits.size_pos (hr : h.Admits r) : 0 < r.size := by
  cases r with
  | zeroed n => exact hr
  | fresh n => exact hr
  | resized p old n => exact hr.2

lemma Tidy.pos (hh : h.Tidy) {m : Nat} (hp : h.blocks[p]? = some m) : p ≠ 0 := (hh.placed p m hp).1.ne'

lemma replaced_ne_iff (hp : p ≠ 0) : r.replaced? ≠ some p ↔ p ≠ r.replaced?.getD 0 := by
  cases r.replaced? with
  | none => simpa using hp
  | some g => simp [eq_comm]

lemma blocks_met (r : HeapRequest) (h : Heap) (q p m : Nat) :
    ((r.replaced?.elim h.blocks h.blocks.erase).insert q r.size)[p]? = some m ↔
      if p = q then r.size = m else h.blocks[p]? = some m ∧ r.replaced? ≠ some p := by
  rw [Std.HashMap.getElem?_insert]
  by_cases hp : p = q
  · simp [hp]
  · rw [if_neg hp, if_neg fun hq => hp (beq_iff_eq.mp hq).symm]
    cases hr : r.replaced? with
    | none => simp
    | some g =>
      simp only [Option.elim_some, Std.HashMap.getElem?_erase, beq_iff_eq]
      by_cases hg : g = p <;> simp [hg]

def met (h : Heap) (r : HeapRequest) (q : Nat) : Heap where
  platform := h.platform
  requests := h.requests + 1
  blocks := (r.replaced?.elim h.blocks h.blocks.erase).insert q r.size
  memory := (h.answer r).memory

lemma met_grows (hq : q ∈ (h.answer r).address) : h.Grows (h.met r q) where
  platform := rfl
  requests := Nat.le_succ _
  blocks p m hp := by
    rw [met, blocks_met] at hp
    split at hp
    · next heq =>
      subst heq
      exact .inr ⟨h.requests, h.memory, r, Nat.le_refl _, Nat.lt_succ_self _, hp, hq⟩
    · exact .inl hp.1

lemma Honest.replaced (hh : h.Tidy) (hr : h.Admits r) (hx : h.Honest r (h.answer r))
    (hq : q ∈ (h.answer r).address) {m : Nat} (hm : h.blocks[q]? = some m) : q = r.replaced?.getD 0 := by
  by_contra hne
  -- Blocks have bytes, so one cannot be clear of another at the same address.
  have hclear := hx.apart q hq q m hm ((replaced_ne_iff (hh.pos hm)).mpr hne)
  have hpos := hr.size_pos
  have hm' := (hh.placed q m hm).2.2
  rcases hclear with hclear | hclear <;> simp only at hclear <;> omega

lemma met_tidy (hh : h.Tidy) (hr : h.Admits r) (hx : h.Honest r (h.answer r)) (hq : q ∈ (h.answer r).address) :
    (h.met r q).Tidy where
  placed p m hp := by
    rw [met, blocks_met] at hp
    split at hp
    · next heq =>
      subst heq hp
      exact ⟨(hx.placed p hq).1, (hx.placed p hq).2, hr.size_pos⟩
    · exact hh.placed p m hp.1
  apart p m p' m' hp hp' hne := by
    rw [met, blocks_met] at hp hp'
    split at hp <;> split at hp'
    · omega
    · next heq _ =>
      subst heq hp
      exact hx.apart p hq p' m' hp'.1 hp'.2
    · next heq =>
      subst heq hp'
      exact Or.symm (hx.apart p' hq p m hp.1 hp.2)
    · exact hh.apart p m p' m' hp.1 hp'.1 hne

lemma met_trade (hh : h.Tidy) (hr : h.Admits r) (hx : h.Honest r (h.answer r)) (hq : q ∈ (h.answer r).address) :
    h.ledger.Trade (h.met r q).ledger (r.replaced?.getD 0) (some (q, r.size)) where
  live p m := by
    change (h.met r q).blocks[p]? = some m ↔ h.blocks[p]? = some m ∧ _ ∨ _
    rw [met, blocks_met]
    by_cases hp : p = q
    · subst hp
      simp only [if_true, Option.some.injEq, Prod.mk.injEq, true_and]
      exact ⟨.inr, fun h' => h'.elim (fun h' => absurd (hx.replaced hh hr hq h'.1) h'.2) id⟩
    · simp only [if_neg hp, Option.some.injEq, Prod.mk.injEq, Ne.symm hp, false_and, or_false]
      exact and_congr_right fun hm => replaced_ne_iff (hh.pos hm)
  fresh q' k heq hne m hm := by
    obtain ⟨rfl, rfl⟩ := Prod.mk.inj (Option.some.inj heq)
    exact hne (hx.replaced hh hr hq hm)
  kept p m hp hne := hx.kept p m hp (.inr ((replaced_ne_iff (hh.pos hp)).mpr hne))

lemma request_answers (h : Heap) (r : HeapRequest) :
    (request r).Settles h (fun _ u => (h.answer r).address = none ∧
      u = { h with requests := h.requests + 1, memory := (h.answer r).memory })
      fun q u => q ∈ (h.answer r).address ∧ u = h.met r q := by
  apply yields_get.bind_settles
  apply yields_set.bind_settles
  cases (h.answer r).address with
  | none => exact .inl ⟨_, _, yields_fail _, rfl, rfl⟩
  | some q => exact .inr ⟨q, h.met r q, ⟨rfl, rfl⟩, rfl, rfl⟩

lemma request_settles (hx : h.Honest r (h.answer r)) :
    (request r).Settles h (fun _ u => h.Refused u) fun q u => q ∈ (h.answer r).address ∧ u = h.met r q := by
  refine (request_answers h r).mono ?_ fun _ _ h => h
  rintro _ _ ⟨hnone, rfl⟩
  exact ⟨rfl, Nat.le_succ _, rfl, fun p m hp => hx.kept p m hp (.inl hnone)⟩

def Names (h : Heap) (p j : Nat) : Prop := h.blocks[p]? = some j ∨ p = 0 ∧ j = 0

lemma giveBack_trade (h : Heap) (p : Nat) :
    h.ledger.Trade ({ h with blocks := h.blocks.erase p } : Heap).ledger p none where
  live q m := by
    change (h.blocks.erase p)[q]? = some m ↔ h.blocks[q]? = some m ∧ q ≠ p ∨ _
    rw [Std.HashMap.getElem?_erase]
    by_cases hq : p = q
    · simp [hq]
    · simp [hq, Ne.symm hq]
  fresh q k heq := by cases heq
  kept _ _ _ _ _ _ := rfl

lemma of_giveBack {m : Nat} (hq : (h.blocks.erase p)[q]? = some m) : h.blocks[q]? = some m :=
  (((giveBack_trade h p).live q m).mp hq).elim And.left fun heq => by cases heq

lemma giveBack_tidy (hh : h.Tidy) (p : Nat) : ({ h with blocks := h.blocks.erase p } : Heap).Tidy :=
  ⟨fun q m hq => hh.placed q m (of_giveBack hq),
    fun q m q' m' hq hq' => hh.apart q m q' m' (of_giveBack hq) (of_giveBack hq')⟩

lemma giveBack_grows (h : Heap) (p : Nat) : h.Grows { h with blocks := h.blocks.erase p } :=
  ⟨rfl, Nat.le_refl _, fun _ _ hq => .inl (of_giveBack hq)⟩

def Meets (h u : Heap) (p q k : Nat) : Prop :=
  ∃ r, h.Admits r ∧ r.replaced?.getD 0 = p ∧ r.size = k ∧ q ∈ (h.answer r).address ∧ u = h.met r q

lemma allocate_meets (honest : ∀ r, h.Admits r → h.Honest r (h.answer r)) (n : Nat) :
    (allocate n).Settles h (fun _ u => h.Refused u) fun q u => ∃ k, n ≤ k ∧ h.Meets u 0 q k ∧
      ∀ i < n, u.memory.byte (q + i) = 0 := by
  have hr : h.Admits (.zeroed (max n 1)) := Nat.le_max_right n 1
  refine (request_settles (honest _ hr)).mono (fun _ _ h => h) ?_
  rintro q u ⟨hq, rfl⟩
  exact ⟨_, Nat.le_max_left n 1, ⟨_, hr, rfl, rfl, hq, rfl⟩,
    fun i hi => (honest _ hr).zeroed q hq _ rfl i (lt_max_of_lt_left hi)⟩

lemma resize_meets (hh : h.Tidy) (honest : ∀ r, h.Admits r → h.Honest r (h.answer r)) (n : Nat) {j : Nat}
    (hp : h.Names p j) :
    (resize p n).Settles h (fun _ u => h.Refused u) fun q u => ∃ k, n ≤ k ∧ h.Meets u p q k ∧
      ∀ i < min j n, u.memory.byte (q + i) = h.memory.byte (p + i) := by
  apply yields_get.bind_settles
  rcases hp with hp | ⟨rfl, rfl⟩
  · have hr : h.Admits (.resized p j (max n 1)) := ⟨hp, Nat.le_max_right n 1⟩
    rw [hp]
    refine (request_settles (honest _ hr)).mono (fun _ _ h => h) ?_
    rintro q u ⟨hq, rfl⟩
    exact ⟨_, Nat.le_max_left n 1, ⟨_, hr, rfl, rfl, hq, rfl⟩,
      fun i hi => (honest _ hr).carried q hq _ _ _ rfl i (by omega)⟩
  · have hr : h.Admits (.fresh (max n 1)) := Nat.le_max_right n 1
    rw [Option.eq_none_iff_forall_ne_some.mpr hh.null]
    refine (request_settles (honest _ hr)).mono (fun _ _ h => h) ?_
    rintro q u ⟨hq, rfl⟩
    exact ⟨_, Nat.le_max_left n 1, ⟨_, hr, rfl, rfl, hq, rfl⟩, fun i hi => by omega⟩

end Heap

end BitStore
