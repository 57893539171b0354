import BitStore.Proofs.Store.Spacious

namespace BitStore

open BitStore.Action

def Deed.releases : Deed → Bool
  | .clear .. | .giveBack _ => true
  | _ => false

namespace Workspace

variable {w : Workspace} {d : Deed} {o : Owner} {i j n p q : Nat} {r : RawBlock}

lemma settled_vectors {α : Type} (w : Workspace) (j : Nat) (block : α → Option RawBlock) (x : Outcome Store α) :
    (w.settled j block x).vectors = w.vectors := by
  rw [settled]
  split <;> rfl

lemma settled_raws {α : Type} (w : Workspace) {j j' : Nat} (hne : j' ≠ j) (block : α → Option RawBlock)
    (x : Outcome Store α) : (w.settled j block x).raws j' = w.raws j' := by
  rw [settled]
  split
  · exact Function.update_of_ne hne ..
  · rfl

lemma step_vectors (hd : d.owner? ≠ some (.vector i)) : (w.step d).vectors i = w.vectors i := by
  have hne {i' : Nat} (h : some (Owner.vector i') ≠ some (.vector i)) : i ≠ i' := fun heq => h (by rw [heq])
  cases d with
  | resize => exact Function.update_of_ne (hne hd) ..
  | clear => exact Function.update_of_ne (hne hd) ..
  | allocate => exact congrFun (settled_vectors ..) i
  | resizeRaw => exact congrFun (settled_vectors ..) i
  | giveBack => exact congrFun (settled_vectors ..) i
  | _ => rfl

lemma step_raws (hd : d.owner? ≠ some (.raw j)) : (w.step d).raws j = w.raws j := by
  have hne {j' : Nat} (h : some (Owner.raw j') ≠ some (.raw j)) : j ≠ j' := fun heq => h (by rw [heq])
  cases d with
  | allocate => exact w.settled_raws (hne hd) ..
  | resizeRaw => exact w.settled_raws (hne hd) ..
  | giveBack => exact w.settled_raws (hne hd) ..
  | _ => rfl

lemma after_vectors {deeds : List Deed} (hdeeds : ∀ d ∈ deeds, d.owner? ≠ some (.vector i)) :
    (w.after deeds).vectors i = w.vectors i := by
  induction deeds generalizing w with
  | nil => rfl
  | cons d rest ih =>
    obtain ⟨hd, hrest⟩ := List.forall_mem_cons.mp hdeeds
    exact (ih hrest).trans (step_vectors hd)

lemma Secure.released (hw : w.Secure) (hd : d.releases = true) : (w.step d).Secure ∧
    ∃ o, d.owner? = some o ∧ (w.step d).claim = Function.update w.claim o none := by
  cases d with
  | clear now i =>
    refine ⟨(hw.clear now i).secure, .vector i, rfl, ?_⟩
    obtain ⟨_, _, _, heq⟩ := hw.cleared now i
    rw [heq, claim_withHeld]
    rfl
  | giveBack j =>
    refine ⟨(hw.giveBack j).secure, .raw j, rfl, ?_⟩
    obtain ⟨_, _, heq⟩ := hw.givenBack j
    rw [heq, claim_withRaw]
    rfl
  | _ => cases hd

lemma Secure.claims_released {deeds : List Deed} (hw : w.Secure) (hdeeds : ∀ d ∈ deeds, d.releases = true) :
    (w.after deeds).Secure ∧
      ∀ o, (w.claim o ≠ none → ∃ d ∈ deeds, d.owner? = some o) → (w.after deeds).claim o = none := by
  induction deeds generalizing w with
  | nil => exact ⟨hw, fun o ho => by simpa [Workspace.after] using ho⟩
  | cons d rest ih =>
    obtain ⟨hd, hrest⟩ := List.forall_mem_cons.mp hdeeds
    obtain ⟨hsecure, o', howner, hclaim⟩ := hw.released hd
    obtain ⟨hafter, hnone⟩ := ih hsecure hrest
    refine ⟨hafter, fun o ho => hnone o fun hheld => ?_⟩
    rw [hclaim] at hheld
    by_cases heq : o = o'
    · rw [heq, Function.update_self] at hheld
      exact absurd rfl hheld
    · rw [Function.update_of_ne heq] at hheld
      obtain ⟨d', hmem, hd'⟩ := ho hheld
      rcases List.mem_cons.mp hmem with rfl | hmem
      · exact absurd (Option.some.inj (hd'.symm.trans howner)) heq
      · exact ⟨d', hmem, hd'⟩

structure Clears (w : Workspace) (deeds : List Deed) : Prop where
  only : ∀ d ∈ deeds, d.releases = true
  vectors : ∀ i, (w.vectors i).data ≠ none → ∃ now, .clear now i ∈ deeds

structure Releases (w : Workspace) (deeds : List Deed) : Prop extends w.Clears deeds where
  raws : ∀ j, w.raws j ≠ none → .giveBack j ∈ deeds

lemma Secure.all_cleared {deeds : List Deed} (hw : w.Secure) (hdeeds : w.Clears deeds) (i : Nat) :
    ((w.after deeds).vectors i).data = none := by
  refine Option.map_eq_none_iff.mp ((hw.claims_released hdeeds.only).2 (.vector i) fun hheld => ?_)
  obtain ⟨now, hmem⟩ := hdeeds.vectors i (mt claim_empty hheld)
  exact ⟨_, hmem, rfl⟩

lemma Secure.none_claimed {deeds : List Deed} (hw : w.Secure) (hdeeds : w.Releases deeds) (o : Owner) :
    (w.after deeds).claim o = none := by
  cases o with
  | vector i => exact claim_empty (hw.all_cleared hdeeds.toClears i)
  | raw j =>
    refine (hw.claims_released hdeeds.only).2 (.raw j) fun hheld => ⟨_, hdeeds.raws j fun hraw => ?_, rfl⟩
    exact hheld (by rw [claim, hraw, Option.map_none])

lemma Secure.untouched (hw : w.Secure) (hd : d.owner? ≠ some o) (ho : w.claim o = some (p, n)) :
    p ≠ d.owner?.elim 0 w.pointer := by
  cases howner : d.owner? with
  | none => exact hw.backs.pos hw.sound ho
  | some o' =>
    refine hw.backs.pointer_ne hw.sound (fun heq => hd ?_) ho
    rw [howner, heq]

lemma Secure.words_spared (hw : w.Secure) {t : Store} (ht : t.Sound) {q : Nat} (hspares : w.store.Spares t q)
    (hne : ∀ p n, w.claim (.vector i) = some (p, n) → p ≠ q) :
    t.words (w.vectors i) = w.store.words (w.vectors i) := by
  refine hspares.words_eq hw.sound ht fun p hp => ?_
  have hclaim := claim_vector hp
  obtain ⟨k, hk, hlive⟩ := hw.backs.backed _ _ _ hclaim
  exact ⟨_, k, hlive, (BitVector.words_le_reserved _).trans hk, hne p _ hclaim⟩

lemma Secure.bytes_spared (hw : w.Secure) {t : Store} (ht : t.Sound) {q : Nat} (hspares : w.store.Spares t q)
    (hr : w.raws j = some r) (hne : r.address ≠ q) :
    ∀ k < r.size, t.byte r.address k = w.store.byte r.address k := by
  obtain ⟨m, hm, hlive⟩ := hw.backs.backed (.raw j) r.address r.size (by rw [claim, hr, Option.map_some])
  exact fun k hk => hspares.byte_eq hw.sound ht hlive hne (hk.trans_le hm)

lemma Secure.allocate_zeros (hw : w.Secure) (ht : w.store.Trusted)
    (hq : ((Store.allocate n).run w.store).result = .ok q) :
    ∀ k < n, ((Store.allocate n).run w.store).state.byte q k = 0 := by
  obtain ⟨m, hm, htrades, hzeros⟩ := (Store.allocate_settles hw.sound ht n).post ⟨hq, rfl⟩
  intro k hk
  rw [htrades.sound.byte_eq htrades.trade.mem]
  exact hzeros k hk

theorem step_isolated (hw : w.Reached) (ht : w.store.Trusted) (hd : w.Permits d) :
    (∀ i, d.owner? ≠ some (.vector i) → (w.step d).vectors i = w.vectors i ∧
      (w.step d).store.words (w.vectors i) = w.store.words (w.vectors i)) ∧
    (∀ j r, d.owner? ≠ some (.raw j) → w.raws j = some r → (w.step d).raws j = some r ∧
      ∀ k < r.size, (w.step d).store.byte r.address k = w.store.byte r.address k) ∧
    ∀ n q, ((Store.allocate n).run w.store).result = .ok q →
      ∀ k < n, ((Store.allocate n).run w.store).state.byte q k = 0 := by
  have hsecure := hw.secure
  obtain ⟨hafter, hspares⟩ := hsecure.step ht hd
  refine ⟨fun i hi => ⟨step_vectors hi, ?_⟩, fun j r hj hr => ⟨(step_raws hj).trans hr, ?_⟩,
    fun n q => hsecure.allocate_zeros ht⟩
  · exact hsecure.words_spared hafter.sound hspares fun p n => hsecure.untouched hi
  · exact hsecure.bytes_spared hafter.sound hspares hr <|
      hsecure.untouched hj (by rw [claim, hr, Option.map_some])

theorem step_isolated_paired : paired.vectors 1 = ⟨64, some 4096⟩ ∧
    (paired.step (.allocate 0 40)).store.words ⟨64, some 4096⟩ = paired.store.words ⟨64, some 4096⟩ ∧
    ∀ k < 40, ((Store.allocate 40).run paired.store).state.byte 4128 k = 0 := by
  have hvector : paired.vectors 1 = ⟨64, some 4096⟩ := by decide +kernel
  obtain ⟨hvectors, _, hzeros⟩ :=
    step_isolated paired_reached.1 paired_reached.2 (d := .allocate 0 40) ⟨by rfl, nofun⟩
  refine ⟨hvector, ?_, hzeros 40 4128 (by decide +kernel)⟩
  rw [← hvector]
  exact (hvectors 1 (by decide)).2

end Workspace

end BitStore
