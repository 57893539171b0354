import BitStore.Proofs.Arena.Vacant
import BitStore.Proofs.Store.Isolation

namespace BitStore

open BitStore.Action

namespace Workspace

variable {w : Workspace} {i j p n k : Nat}

lemma claim_eq_some_iff : (∃ o n, w.claim o = some (p, n)) ↔
    (∃ i, (w.vectors i).data = some p) ∨ ∃ j r, w.raws j = some r ∧ r.address = p := by
  constructor
  · rintro ⟨i | j, n, h⟩
    · obtain ⟨_, hdata, heq⟩ := Option.map_eq_some_iff.mp h
      exact .inl ⟨i, hdata.trans (congrArg some (Prod.mk.inj heq).1)⟩
    · obtain ⟨r, hr, heq⟩ := Option.map_eq_some_iff.mp h
      exact .inr ⟨j, r, hr, (Prod.mk.inj heq).1⟩
  · rintro (⟨i, hdata⟩ | ⟨j, r, hr, rfl⟩)
    · exact ⟨.vector i, _, claim_vector hdata⟩
    · exact ⟨.raw j, r.size, by rw [claim, hr, Option.map_some]⟩

lemma Secure.live_iff (hw : w.Secure) (b : Backend) : (∃ k, (w.store.ledger b).live p k) ↔
    w.issuer p = b ∧ ∃ o n, w.claim o = some (p, n) := by
  constructor
  · rintro ⟨k, hlive⟩
    obtain ⟨o, n, hclaim⟩ := hw.backs.owned b p k hlive
    obtain ⟨m, _, hissued⟩ := hw.backs.backed o p n hclaim
    exact ⟨hw.sound.backend_unique hissued hlive, o, n, hclaim⟩
  · rintro ⟨rfl, o, n, hclaim⟩
    obtain ⟨k, _, hlive⟩ := hw.backs.backed o p n hclaim
    exact ⟨k, hlive⟩

lemma Secure.stats_unclaimed (hw : w.Secure) (hnone : ∀ o, w.claim o = none) (henabled : w.store.poolEnabled) :
    ∃ stats, w.store.poolStats = .ok (some stats) ∧ stats.allocatedBytes = 0 ∧ stats.blocks ≤ 1 := by
  obtain ⟨a, ha⟩ := Option.isSome_iff_exists.mp henabled
  obtain ⟨l, hl⟩ := hw.sound.layout a ha
  have hvacant (p k : Nat) : ¬a.Usable p k := fun hlive => by
    obtain ⟨_, o, n, hclaim⟩ := (hw.live_iff .pool).mp ⟨k, Store.live_pool.mpr ⟨a, ha, hlive⟩⟩
    cases (hnone o).symm.trans hclaim
  obtain ⟨stats, hstats, hempty⟩ := hl.stats_vacant hvacant
  refine ⟨stats, ?_, hempty⟩
  rw [Store.poolStats, ha]
  simp only [Option.mapM_some, hstats]
  rfl

/-- Every vector stands on storage of its own from the backend that issued it, what is live in the pool has
an owner, and nothing is left there once all owners have given up what they had. -/
theorem owned_exactly (hw : w.Reached) :
    (∀ i, (w.vectors i).data = none → (w.vectors i).len = 0) ∧
    (∀ i p, (w.vectors i).data = some p → ∃ padded k, paddedBytes? (w.vectors i).len = some padded ∧ padded ≤ k ∧
      (w.store.ledger (w.issuer p)).live p k) ∧
    (∀ i j p, (w.vectors i).data = some p → (w.vectors j).data = some p → i = j) ∧
    (∀ p, (∃ k, (w.store.ledger .pool).live p k) ↔ w.issuer p = .pool ∧
      ((∃ i, (w.vectors i).data = some p) ∨ ∃ j r, w.raws j = some r ∧ r.address = p)) ∧
    (∀ deeds, w.Releases deeds → (w.after deeds).store.poolEnabled → ∃ stats,
      (w.after deeds).store.poolStats = .ok (some stats) ∧ stats.allocatedBytes = 0 ∧ stats.blocks ≤ 1) := by
  have hsecure := hw.secure
  refine ⟨hsecure.bare, fun i p hp => ?_, fun i j p hi hj => ?_, fun p => ?_, fun deeds hdeeds => ?_⟩
  · obtain ⟨k, hk, hlive⟩ := hsecure.backs.backed _ _ _ (claim_vector hp)
    exact ⟨_, k, hsecure.padded i, hk, hlive⟩
  · exact Owner.vector.inj (hsecure.backs.single _ _ p _ _ (claim_vector hi) (claim_vector hj))
  · rw [hsecure.live_iff, claim_eq_some_iff]
  · exact (hsecure.claims_released hdeeds.only).1.stats_unclaimed (hsecure.none_claimed hdeeds)

def mingled : Workspace := (on .spacious 0).after [.allocate 0 40, enablePage, .resize 0 1 64]

lemma mingled_reached : mingled.Reached ∧ mingled.store.Trusted :=
  reached_spacious ⟨rfl, nofun, trivial, enablePage_low _, trivial, nofun, trivial⟩

lemma mingled_releases : mingled.Releases [.clear 0 1, .giveBack 0] := by
  refine ⟨⟨by simp [Deed.releases], fun i hi => ?_⟩, fun j hj => ?_⟩
  · by_cases h : i = 1
    · exact ⟨0, by simp [h]⟩
    · refine absurd ?_ hi
      rw [mingled, after_vectors (by simpa [Deed.owner?, enablePage] using Ne.symm h)]
      rfl
  · cases j with
    | zero => simp
    | succ j => exact absurd rfl hj

theorem owned_exactly_emptied :
    mingled.store.poolStats.map (Option.map (·.allocatedBytes)) = .ok (some 32) ∧
    ∃ stats, (mingled.after [.clear 0 1, .giveBack 0]).store.poolStats = .ok (some stats) ∧
      stats.allocatedBytes = 0 ∧ stats.blocks ≤ 1 := by
  obtain ⟨_, _, _, _, hnothing⟩ := owned_exactly mingled_reached.1
  exact ⟨rfl, hnothing _ mingled_releases (by decide +kernel)⟩

end Workspace

end BitStore
