import BitStore.Proofs.Store.Changes
import Mathlib.Logic.Function.Basic

/-! Who owns which allocation. A trade of one owner leaves the claims of all others good. -/

namespace BitStore

inductive Owner where
  | vector (i : Nat)
  | raw (j : Nat)
  deriving DecidableEq, Repr

namespace Owner

variable {claim : Owner → Option (Nat × Nat)} {o : Owner} {p n : Nat}

def pointer (o : Owner) (claim : Owner → Option (Nat × Nat)) : Nat := (claim o).elim 0 Prod.fst

lemma pointer_some (ho : claim o = some (p, n)) : o.pointer claim = p := by
  rw [pointer, ho]
  rfl

lemma pointer_none (ho : claim o = none) : o.pointer claim = 0 := by
  rw [pointer, ho]
  rfl

end Owner

namespace Store

def source (s : Store) (issuer : Nat → Backend) (p : Nat) : Backend := if p = 0 then s.serving else issuer p

/-- Every claim is good for an allocation of the backend that issued it; no two are for the same one, and
there are no allocations but those claimed. -/
structure Backs (s : Store) (claim : Owner → Option (Nat × Nat)) (issuer : Nat → Backend) : Prop where
  backed : ∀ o p n, claim o = some (p, n) → ∃ k, n ≤ k ∧ (s.ledger (issuer p)).live p k
  single : ∀ o o' p n n', claim o = some (p, n) → claim o' = some (p, n') → o = o'
  owned : ∀ c p k, (s.ledger c).live p k → ∃ o n, claim o = some (p, n)

variable {s t : Store} {b c : Backend} {p q m n k : Nat} {made : Option (Nat × Nat)}
  {claim : Owner → Option (Nat × Nat)} {issuer : Nat → Backend} {o o' : Owner}

lemma Backs.pos (h : s.Backs claim issuer) (hs : s.Sound) (ho : claim o = some (p, n)) : p ≠ 0 := by
  obtain ⟨k, _, hp⟩ := h.backed o p n ho
  exact hs.pos hp

lemma Backs.source_eq (h : s.Backs claim issuer) (hs : s.Sound) (ho : claim o = some (p, n)) :
    s.source issuer (o.pointer claim) = issuer p := by
  rw [Owner.pointer_some ho, source, if_neg (h.pos hs ho)]

lemma Backs.names (h : s.Backs claim issuer) (hs : s.Sound) (o : Owner) :
    ∃ j, (∀ p n, claim o = some (p, n) → n ≤ j) ∧
      s.Names (s.source issuer (o.pointer claim)) (o.pointer claim) j := by
  cases ho : claim o with
  | none =>
    refine ⟨0, by simp, ?_⟩
    rw [Owner.pointer_none ho, source, if_pos rfl]
    exact .inr ⟨rfl, rfl, rfl⟩
  | some x =>
    obtain ⟨p, n⟩ := x
    obtain ⟨k, hk, hp⟩ := h.backed o p n ho
    refine ⟨k, ?_, ?_⟩
    · rintro _ _ ⟨⟩
      exact hk
    · rw [h.source_eq hs ho, Owner.pointer_some ho]
      exact .inl hp

lemma Backs.pointer_ne (h : s.Backs claim issuer) (hs : s.Sound) (hne : o' ≠ o) (ho' : claim o' = some (p, n)) :
    p ≠ o.pointer claim := by
  cases ho : claim o with
  | none =>
    rw [Owner.pointer_none ho]
    exact h.pos hs ho'
  | some x =>
    rw [Owner.pointer_some ho]
    rintro rfl
    exact hne (h.single o' o _ n x.2 ho' ho)

lemma Backs.of_live (h : s.Backs claim issuer) (hlive : ∀ c, (t.ledger c).live = (s.ledger c).live) :
    t.Backs claim issuer := by
  refine ⟨?_, h.single, ?_⟩
  · intro o p n ho
    rw [hlive]
    exact h.backed o p n ho
  · intro c p k
    rw [hlive]
    exact h.owned c p k

lemma Backs.update (h : s.Backs claim issuer) {x : Option (Nat × Nat)} {issuer' : Nat → Backend}
    (hnew : ∀ p n, x = some (p, n) → ∃ k, n ≤ k ∧ (t.ledger (issuer' p)).live p k)
    (hothers : ∀ o' p n, o' ≠ o → claim o' = some (p, n) → ∃ k, n ≤ k ∧ (t.ledger (issuer' p)).live p k)
    (hapart : ∀ o' p n m, o' ≠ o → claim o' = some (p, n) → x ≠ some (p, m))
    (howned : ∀ c p k, (t.ledger c).live p k → (∃ o' n, o' ≠ o ∧ claim o' = some (p, n)) ∨ ∃ n, x = some (p, n)) :
    t.Backs (Function.update claim o x) issuer' := by
  refine ⟨fun o' p n hp => ?_, fun o₁ o₂ p m n h₁ h₂ => ?_, fun c p k hp => ?_⟩
  · by_cases heq : o' = o
    · subst heq
      rw [Function.update_self] at hp
      exact hnew p n hp
    · rw [Function.update_of_ne heq] at hp
      exact hothers o' p n heq hp
  · by_cases heq₁ : o₁ = o <;> by_cases heq₂ : o₂ = o
    · rw [heq₁, heq₂]
    · subst heq₁
      rw [Function.update_self] at h₁
      rw [Function.update_of_ne heq₂] at h₂
      exact absurd h₁ (hapart o₂ p n m heq₂ h₂)
    · subst heq₂
      rw [Function.update_self] at h₂
      rw [Function.update_of_ne heq₁] at h₁
      exact absurd h₂ (hapart o₁ p m n heq₁ h₁)
    · rw [Function.update_of_ne heq₁] at h₁
      rw [Function.update_of_ne heq₂] at h₂
      exact h.single o₁ o₂ p m n h₁ h₂
  · rcases howned c p k hp with ⟨o', n, hne, hclaim⟩ | ⟨n, rfl⟩
    · exact ⟨o', n, by rw [Function.update_of_ne hne, hclaim]⟩
    · exact ⟨o, n, Function.update_self ..⟩

lemma Backs.shrunk (h : s.Backs claim issuer) (ho : claim o = some (p, n)) (hm : m ≤ n) :
    s.Backs (Function.update claim o (some (p, m))) issuer := by
  refine h.update ?_ (fun o' r i _ => h.backed o' r i) ?_ fun c r k hr => ?_
  · rintro _ _ ⟨⟩
    obtain ⟨k, hk, hlive⟩ := h.backed o p n ho
    exact ⟨k, hm.trans hk, hlive⟩
  · rintro o' _ i _ hne hclaim ⟨⟩
    exact hne (h.single o' o p i n hclaim ho)
  · obtain ⟨o', i, hclaim⟩ := h.owned c r k hr
    by_cases heq : o' = o
    · subst heq
      obtain ⟨rfl, _⟩ := Prod.mk.inj (Option.some.inj (ho.symm.trans hclaim))
      exact .inr ⟨m, rfl⟩
    · exact .inl ⟨o', i, heq, hclaim⟩

lemma Backs.owner_after (h : s.Backs claim issuer) (hs : s.Sound)
    (ht : s.Trades t (s.source issuer (o.pointer claim)) (o.pointer claim) made) (hp : (t.ledger c).live p m) :
    (∃ o' n, o' ≠ o ∧ claim o' = some (p, n)) ∨ made = some (p, m) := by
  by_cases hc : c = s.source issuer (o.pointer claim)
  · subst hc
    refine ((ht.trade.live p m).mp hp).imp_left fun ⟨hlive, hne⟩ => ?_
    obtain ⟨o', n, hclaim⟩ := h.owned _ p m hlive
    refine ⟨o', n, ?_, hclaim⟩
    rintro rfl
    exact hne (Owner.pointer_some hclaim).symm
  · -- The backend that was not asked has nothing of `o`.
    rw [ht.others c hc] at hp
    obtain ⟨o', n, hclaim⟩ := h.owned c p m hp
    refine .inl ⟨o', n, ?_, hclaim⟩
    rintro rfl
    obtain ⟨k, _, hlive⟩ := h.backed o' p n hclaim
    rw [h.source_eq hs hclaim] at hc
    exact hc (hs.backend_unique hp hlive)

lemma Backs.other_after (h : s.Backs claim issuer) (hs : s.Sound)
    (ht : s.Trades t b (o.pointer claim) made) (hne : o' ≠ o) (ho' : claim o' = some (p, n)) :
    ∃ k, n ≤ k ∧ (t.ledger (issuer p)).live p k := by
  obtain ⟨k, hk, hp⟩ := h.backed o' p n ho'
  exact ⟨k, hk, ht.live_other hp (h.pointer_ne hs hne ho')⟩

lemma Backs.dropped (h : s.Backs claim issuer) (hs : s.Sound)
    (ht : s.Trades t (s.source issuer (o.pointer claim)) (o.pointer claim) none) :
    t.Backs (Function.update claim o none) issuer := by
  refine h.update nofun (fun o' p n hne => h.other_after hs ht hne) nofun fun c p k hp => ?_
  exact (h.owner_after hs ht hp).imp_right nofun

lemma Backs.traded (h : s.Backs claim issuer) (hs : s.Sound)
    (ht : s.Trades t (s.source issuer (o.pointer claim)) (o.pointer claim) (some (q, k))) (hn : n ≤ k) :
    t.Backs (Function.update claim o (some (q, n)))
      (Function.update issuer q (s.source issuer (o.pointer claim))) := by
  -- Only `q` has a new issuer, and no other owner claims it: what it claims is live and is not given up.
  have hother {o' : Owner} {r i : Nat} (hne : o' ≠ o) (hr : claim o' = some (r, i)) : r ≠ q := by
    obtain ⟨m, _, hlive⟩ := h.backed o' r i hr
    exact ht.ne_made hlive (h.pointer_ne hs hne hr)
  refine h.update ?_ (fun o' r i hne hr => ?_) ?_ fun c r m hr => ?_
  · rintro _ _ ⟨⟩
    rw [Function.update_self]
    exact ⟨k, hn, ht.trade.mem⟩
  · rw [Function.update_of_ne (hother hne hr)]
    exact h.other_after hs ht hne hr
  · rintro o' _ i _ hne hr ⟨⟩
    exact hother hne hr rfl
  · refine (h.owner_after hs ht hr).imp_right fun hmade => ?_
    obtain ⟨rfl, _⟩ := Prod.mk.inj (Option.some.inj hmade)
    exact ⟨n, rfl⟩

end Store

end BitStore
