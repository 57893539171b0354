import BitStore.Arena.Basic
import BitStore.Proofs.Outcome
import BitStore.Proofs.Pages.Report
import BitStore.Proofs.Rounding

namespace BitStore

open BitStore.Action

namespace Machine

def plain : Machine where
  meminfo := none
  pageSize := 4096
  regionBase := 4096
  heapLimit := 1048576
  mappingLimit := 1048576
  hugeLimit := 0
  pageSize_mod := by decide

lemma hugePageSize_mod {m : Machine} {size : Nat} (h : m.hugePageSize = .ok size) : size % 1024 = 0 := by
  by_cases hlarge : m.Oversized
  · rw [hugePageSize_oversized hlarge] at h
    cases h
  · rw [hugePageSize_told hlarge] at h
    obtain rfl := Except.ok.inj h
    rw [told]
    cases m.report? with
    | none => rfl
    | some lines =>
      change ((HugePageInfo.lastValue HugePageInfo.sizeKey lines).map (· * 1024) |>.getD defaultHugePageSize) % 1024 = 0
      cases HugePageInfo.lastValue HugePageInfo.sizeKey lines with
      | none => rfl
      | some n => exact Nat.mul_mod_left n 1024

end Machine

namespace Region

variable {σ : Type} {s : σ}

lemma rounded_mod {len step n k : Nat} (hstep : step % k = 0)
    (h : ((rounded len step : Action σ Nat).run s).result = .ok n) : n % k = 0 := by
  rw [rounded, run_bind] at h
  cases hround : roundUp len step with
  | error f =>
    rw [hround] at h
    cases h
  | ok r =>
    rw [hround] at h
    cases r with
    | none => cases h
    | some m =>
      obtain rfl := Except.ok.inj h
      exact roundUp_mod hstep hround

lemma rounded_ge {len step n : Nat} (h : ((rounded len step : Action σ Nat).run s).result = .ok n) : len ≤ n := by
  obtain ⟨r, t, hround, hr⟩ := ok_of_bind h
  cases r with
  | none => cases hr
  | some m =>
    obtain rfl := Except.ok.inj hr
    exact roundUp_ge (ok_of_lift hround)

lemma ofHeap_len {m : Machine} {len : Nat} {r : Region}
    (h : ((ofHeap m len : Action σ Region).run s).result = .ok r) : r.len = len ∧ 0 < len := by
  rw [ofHeap] at h
  split at h
  · cases h
  · next hpos =>
    split at h
    · cases h
    · obtain rfl := Except.ok.inj h
      exact ⟨rfl, Nat.pos_of_ne_zero hpos⟩

lemma mapped_len {m : Machine} {len : Nat} {granted : Bool} {r : Region}
    (h : ((mapped m len granted : Action σ Region).run s).result = .ok r) : r.len = len ∧ 0 < len := by
  rw [mapped] at h
  split at h
  · cases h
  · next hpos =>
    split at h
    · cases h
    · obtain rfl := Except.ok.inj h
      exact ⟨rfl, Nat.pos_of_ne_zero hpos⟩

lemma reserve_len {m : Machine} {kind : PageKind} {len : Nat} {r : Region}
    (h : ((reserve m kind len : Action σ Region).run s).result = .ok r) :
    r.len % 1024 = 0 ∧ len ≤ r.len ∧ 0 < r.len := by
  cases kind with
  | heap =>
    obtain ⟨n, t, hn, hr⟩ := ok_of_bind h
    obtain ⟨rfl, hpos⟩ := ofHeap_len hr
    exact ⟨rounded_mod m.pageSize_mod hn, Nat.le_trans (Nat.le_max_left len 1) (rounded_ge hn), hpos⟩
  | anonymous =>
    obtain ⟨n, t, hn, hr⟩ := ok_of_bind h
    obtain ⟨rfl, hpos⟩ := mapped_len hr
    exact ⟨rounded_mod m.pageSize_mod hn, rounded_ge hn, hpos⟩
  | huge =>
    obtain ⟨step, t, hstep, hrest⟩ := ok_of_bind h
    obtain ⟨n, u, hn, hr⟩ := ok_of_bind hrest
    obtain ⟨rfl, hpos⟩ := mapped_len hr
    exact ⟨rounded_mod (Machine.hugePageSize_mod (ok_of_lift hstep)) hn, rounded_ge hn, hpos⟩

lemma rounded_still (len step : Nat) : (rounded len step : Action σ Nat).Still :=
  (still_lift _).bind fun n => by cases n <;> first | exact still_pure _ | exact still_fail _

lemma ofHeap_still (m : Machine) (len : Nat) : (ofHeap m len : Action σ Region).Still := by
  rw [ofHeap]
  split
  · exact still_fail _
  · split
    · exact still_fail _
    · exact still_pure _

lemma mapped_still (m : Machine) (len : Nat) (granted : Bool) : (mapped m len granted : Action σ Region).Still := by
  rw [mapped]
  split
  · exact still_fail _
  · split
    · exact still_fail _
    · exact (still_say _).bind fun _ => still_pure _

lemma reserve_still (m : Machine) (kind : PageKind) (len : Nat) : (reserve m kind len : Action σ Region).Still := by
  cases kind with
  | heap => exact (rounded_still _ _).bind fun _ => ofHeap_still m _
  | anonymous => exact (rounded_still _ _).bind fun _ => mapped_still m _ _
  | huge => exact (still_lift _).bind fun _ => (rounded_still _ _).bind fun _ => mapped_still m _ _

end Region

namespace Arena

variable {σ : Type} {s : σ}

lemma reserve_ok {m : Machine} {source : PageSource} {size : Nat} {a : Arena}
    (h : ((reserve m source size : Action σ Arena).run s).result = .ok a) :
    a = ofRegion a.region ∧ a.region.len % 1024 = 0 ∧ size ≤ a.region.len ∧ 0 < a.region.len := by
  have hrest (wanted : Nat) (t : σ) (hwanted : size ≤ wanted)
      (h : ((do
        let region ← Region.reserve m source.kind wanted
        say (.arenaReserved region.len region.base)
        return ofRegion region : Action σ Arena).run t).result = .ok a) :
      a = ofRegion a.region ∧ a.region.len % 1024 = 0 ∧ size ≤ a.region.len ∧ 0 < a.region.len := by
    obtain ⟨region, u, hregion, hsay⟩ := ok_of_bind h
    obtain ⟨_, v, _, hend⟩ := ok_of_bind hsay
    obtain rfl := Except.ok.inj hend
    obtain ⟨hmod, hle, hpos⟩ := Region.reserve_len hregion
    exact ⟨rfl, hmod, Nat.le_trans hwanted hle, hpos⟩
  rw [reserve] at h
  split at h
  · next hzero =>
    obtain ⟨offered, t, _, h⟩ := ok_of_bind h
    split at h
    · obtain ⟨wanted, u, _, h⟩ := ok_of_bind h
      exact hrest wanted u (hzero ▸ Nat.zero_le wanted) h
    · obtain ⟨wanted, u, hfail, _⟩ := ok_of_bind h
      cases hfail
  · obtain ⟨wanted, t, hwanted, h⟩ := ok_of_bind h
    obtain rfl := Except.ok.inj hwanted
    exact hrest size t (Nat.le_refl size) h

lemma reserve_still (m : Machine) (source : PageSource) (size : Nat) :
    (reserve m source size : Action σ Arena).Still := by
  have hrest (wanted : Nat) : (do
      let region ← Region.reserve m source.kind wanted
      say (.arenaReserved region.len region.base)
      return ofRegion region : Action σ Arena).Still :=
    (Region.reserve_still m source.kind wanted).bind fun _ => (still_say _).bind fun _ => still_pure _
  rw [reserve]
  split
  · refine (still_lift _).bind fun offered => ?_
    split
    · exact hrest _
    · exact still_fail _
  · exact hrest size

end Arena

end BitStore
