import BitStore.Proofs.Store.Resizing

namespace BitStore

variable {p q : Nat → Bool} {i k n : Nat}

section Bits

lemma getLsbD_place : ∀ i < 64, ∀ k < 64,
    ((1 : UInt64) <<< UInt64.ofNat i).toBitVec.getLsbD k = decide (k = i) := by
  decide +kernel

lemma getLsbD_withBit (x : UInt64) (hi : i < 64) (hk : k < 64) (b : Bool) :
    (withBit x i b).toBitVec.getLsbD k = if k = i then b else x.toBitVec.getLsbD k := by
  have hplace := getLsbD_place i hi k hk
  cases b with
  | true =>
    rw [withBit, if_pos rfl, UInt64.toBitVec_or, BitVec.getLsbD_or, hplace]
    by_cases hsame : k = i <;> simp [hsame]
  | false =>
    rw [withBit, if_neg Bool.false_ne_true, UInt64.toBitVec_and, BitVec.getLsbD_and, UInt64.toBitVec_not,
      BitVec.getLsbD_not, hplace]
    by_cases hsame : k = i <;> simp [hsame, hk]

lemma count_changed (hother : ∀ j, j ≠ k → q j = p j) (hk : k < n) :
    Nat.count (fun j => q j) n + (p k).toNat = Nat.count (fun j => p j) n + (q k).toNat := by
  induction n with
  | zero => cases hk
  | succ n ih =>
    rw [Nat.count_succ, Nat.count_succ]
    rcases Nat.lt_succ_iff_lt_or_eq.mp hk with hlt | rfl
    · have hbefore := ih hlt
      rw [hother n (Nat.ne_of_gt hlt)]
      omega
    · have hbefore : Nat.count (fun j => q j) k = Nat.count (fun j => p j) k :=
        count_same fun j hj => by rw [hother j (Nat.ne_of_lt hj)]
      rw [hbefore]
      cases p k <;> cases q k <;> rfl

end Bits

namespace Store

variable {s t : Store} {v : BitVector}

lemma setBit_ok (hv : v.Formed) (hk : k < v.len) (b : Bool) (s : Store) :
    ∃ t, s.setBit v k b = .ok t ∧ ∀ j, t.bit v j = if j = k then b else s.bit v j := by
  cases hp : v.data with
  | none => exact absurd (hv.bare hp) (Nat.ne_of_gt (Nat.zero_lt_of_lt hk))
  | some p =>
    refine ⟨s.setWords p (k / 64) (fun _ => withBit (s.word p (k / 64)) (k % 64) b) 1, ?_, fun j => ?_⟩
    · have hin : k / 64 < v.wordCount := by
        rw [wordCount_eq hp hv.fits]
        omega
      rw [setBit, if_pos hk, vectorWord_eq hp hv hk]
      change s.setWord v (k / 64) (withBit (s.word p (k / 64)) (k % 64) b) = _
      simp only [setWord, hp, if_pos hin]
    · simp only [bit, hp, Option.elim_some, bitAt, word_setWords]
      by_cases hword : j / 64 = k / 64
      · have hplace : j % 64 = k % 64 ↔ j = k := by omega
        rw [if_pos (by omega), getLsbD_withBit _ (Nat.mod_lt k (by decide)) (Nat.mod_lt j (by decide)), hword]
        simp only [hplace]
      · have hother : j ≠ k := fun hsame => hword (congrArg (· / 64) hsame)
        rw [if_neg (by omega), if_neg hother]

lemma getBit_changed (hv : v.Formed) (hbit : t.bit v k = s.bit v k) : t.getBit v k = s.getBit v k := by
  by_cases hk : k < v.len
  · rw [getBit_eq hv hk, getBit_eq hv hk, hbit]
  · rw [getBit, getBit, if_neg hk, if_neg hk]

end Store

namespace Workspace

variable {w : Workspace}

theorem ranks_exact (hw : w.Reached) (i : Nat) :
    (∀ k ≤ (w.vectors i).len, w.store.rank (w.vectors i) k =
      .ok (Nat.count (fun j => w.store.getBit (w.vectors i) j = .ok true) k)) ∧
    (∀ k < (w.vectors i).len, (∃ b, w.store.getBit (w.vectors i) k = .ok b) ∧
      ∀ b, ∃ t, w.store.setBit (w.vectors i) k b = .ok t) ∧
    (∀ k, (w.vectors i).len ≤ k →
      w.store.getBit (w.vectors i) k = .error (.bitOutOfBounds k (w.vectors i).len) ∧
      ∀ b, w.store.setBit (w.vectors i) k b = .error (.bitOutOfBounds k (w.vectors i).len)) ∧
    ∀ k b t, w.store.setBit (w.vectors i) k b = .ok t →
      t.getBit (w.vectors i) k = .ok b ∧
      (∀ j, j ≠ k → t.getBit (w.vectors i) j = w.store.getBit (w.vectors i) j) ∧
      (∀ j ≤ k, t.rank (w.vectors i) j = w.store.rank (w.vectors i) j) ∧
      ∀ j, k < j → j ≤ (w.vectors i).len → ∃ old m n, w.store.getBit (w.vectors i) k = .ok old ∧
        w.store.rank (w.vectors i) j = .ok m ∧ t.rank (w.vectors i) j = .ok n ∧ n + old.toNat = m + b.toNat := by
  have hv := hw.secure.formed i
  generalize w.vectors i = v at hv ⊢
  refine ⟨fun k hk => ?_, fun k hk => ⟨⟨_, Store.getBit_eq hv hk⟩, fun b => ?_⟩, fun k hk => ?_, fun k b t hset => ?_⟩
  · rw [Store.rank_eq hv hk]
    refine congrArg Except.ok (count_same fun j hj => ?_)
    rw [Store.getBit_eq hv (hj.trans_le hk), Except.ok.injEq]
  · obtain ⟨t, hset, _⟩ := Store.setBit_ok hv hk b w.store
    exact ⟨t, hset⟩
  · rw [Store.getBit, if_neg (Nat.not_lt.mpr hk)]
    exact ⟨rfl, fun b => by rw [Store.setBit, if_neg (Nat.not_lt.mpr hk)]⟩
  · have hk : k < v.len := by
      refine Nat.not_le.mp fun hk => ?_
      rw [Store.setBit, if_neg (Nat.not_lt.mpr hk)] at hset
      cases hset
    obtain ⟨t', hset', hbits⟩ := Store.setBit_ok hv hk b w.store
    obtain rfl : t' = t := Except.ok.inj (hset'.symm.trans hset)
    have hother : ∀ j, j ≠ k → t'.bit v j = w.store.bit v j := fun j hj => (hbits j).trans (if_neg hj)
    have hself : t'.bit v k = b := (hbits k).trans (if_pos rfl)
    refine ⟨?_, fun j hj => Store.getBit_changed hv (hother j hj), fun j hj => ?_, fun j hj hlen => ?_⟩
    · rw [Store.getBit_eq hv hk, hself]
    · rw [Store.rank_eq hv (hj.trans hk.le), Store.rank_eq hv (hj.trans hk.le)]
      exact congrArg Except.ok (count_same fun x hx => by rw [hother x (Nat.ne_of_lt (hx.trans_le hj))])
    · refine ⟨_, _, _, Store.getBit_eq hv hk, Store.rank_eq hv hlen, Store.rank_eq hv hlen, ?_⟩
      rw [← hself]
      exact count_changed hother hj

lemma trim_written (hw : w.vectors 0 = ⟨100, some 4096⟩) (x : UInt64) :
    ((w.step (.setWord 0 1 x)).step (.resize 0 0 70)).store = w.store.setWords 4096 1 (fun _ => x) 1 := by
  have hwritten : (w.step (.setWord 0 1 x)).store = w.store.setWords 4096 1 (fun _ => x) 1 := by
    change ((w.store.setWord (w.vectors 0) 1 x).toOption.getD w.store) = _
    rw [hw]
    rfl
  have hstays : ¬BitVector.Reallocates ⟨100, some 4096⟩ 70 := by
    rw [BitVector.Reallocates]
    decide
  change ((Held.resize 0 70).run ⟨w.vectors 0, (w.step (.setWord 0 1 x)).store⟩).state.store = _
  rw [hw, Held.resize_inPlace (by decide) (by decide) hstays]
  exact hwritten

lemma trimmed_bit : trimmed.store.bit ⟨70, some 4096⟩ 66 = true := by
  have hwide : (((on .spacious 0).step enablePage).step (.resize 0 0 100)).vectors 0 = ⟨100, some 4096⟩ := by
    decide +kernel
  rw [trimmed, after, after, after, after, after, trim_written hwide, Store.bit, Option.elim_some, bitAt,
    Store.word_setWords]
  decide

theorem ranks_exact_trimmed : trimmed.vectors 0 = ⟨70, some 4096⟩ ∧
    ∃ t n, trimmed.store.setBit ⟨70, some 4096⟩ 66 false = .ok t ∧ t.getBit ⟨70, some 4096⟩ 66 = .ok false ∧
      trimmed.store.rank ⟨70, some 4096⟩ 70 = .ok (n + 1) ∧ t.rank ⟨70, some 4096⟩ 70 = .ok n := by
  have hvector : trimmed.vectors 0 = ⟨70, some 4096⟩ := by decide +kernel
  obtain ⟨_, hwithin, _, hchanges⟩ := ranks_exact trimmed_reached.1 0
  rw [hvector] at hwithin hchanges
  obtain ⟨t, hset⟩ := (hwithin 66 (by decide)).2 false
  obtain ⟨hself, _, _, hlong⟩ := hchanges 66 false t hset
  obtain ⟨old, m, n, hold, hm, hn, hsum⟩ := hlong 70 (by decide) (by decide)
  rw [Store.getBit_eq (hvector ▸ trimmed_reached.1.secure.formed 0) (by decide), trimmed_bit] at hold
  obtain rfl : true = old := Except.ok.inj hold
  obtain rfl : n + 1 = m := hsum
  exact ⟨hvector, t, n, hset, hself, hm, hn⟩

end Workspace

end BitStore
