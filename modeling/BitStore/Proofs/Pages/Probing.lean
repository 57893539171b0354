import BitStore.Proofs.Pages.Reservation

namespace BitStore

open BitStore.Action

variable {σ : Type} {s : σ} {m : Machine} {len size step : Nat}

namespace Machine

def Overfull (m : Machine) : Prop := ∃ free size, m.told = ⟨some free, some size⟩ ∧ maxCount < free * size

lemma hugePageSize_fault_iff : (∃ f, m.hugePageSize = .error f) ↔ m.Oversized := by
  by_cases hlarge : m.Oversized
  · simp [hugePageSize_oversized hlarge, hlarge]
  · simp [hugePageSize_told hlarge, hlarge]

lemma freeHugeBytes_fault_iff : (∃ f, m.freeHugeBytes = .error f) ↔ m.Oversized ∨ m.Overfull := by
  by_cases hlarge : m.Oversized
  · simp [freeHugeBytes_oversized hlarge, hlarge]
  · rw [freeHugeBytes_told hlarge, Overfull, or_iff_right hlarge]
    rcases m.told with ⟨_ | free, _ | size⟩
    · simp
    · simp
    · simp
    · by_cases hfits : free * size ≤ maxCount
      · simp [Checked.mul, hfits, Except.map]
      · simp [Checked.mul, hfits, Except.map, Nat.lt_of_not_le hfits]

lemma told_of_freeHugeBytes {n : Nat} (hlarge : ¬m.Oversized) (h : m.freeHugeBytes = .ok (some n)) :
    ∃ free size, m.told = ⟨some free, some size⟩ ∧ free * size = n := by
  rw [freeHugeBytes_told hlarge] at h
  rcases htold : m.told with ⟨_ | free, _ | size⟩ <;> rw [htold] at h
  · cases h
  · cases h
  · cases h
  · change (Checked.mul free size).map some = _ at h
    cases hmul : Checked.mul free size with
    | error f =>
      rw [hmul] at h
      cases h
    | ok product =>
      rw [hmul] at h
      obtain rfl := Option.some.inj (Except.ok.inj h)
      exact ⟨free, size, rfl, (Checked.mul_eq_ok_iff.mp hmul).1⟩

lemma hugePageSize_pos (h : m.told.pageSize ≠ some 0) : 0 < m.told.pageSize.getD defaultHugePageSize := by
  cases hpage : m.told.pageSize with
  | none => decide
  | some size =>
    rw [hpage] at h
    exact Nat.pos_of_ne_zero fun hzero => h (congrArg some hzero)

end Machine

namespace Region

lemma rounded_settles (len : Nat) (hstep : 0 < step) : (rounded len step : Action σ Nat).Settles s (fun _ _ => True)
    fun n _ => n = leastMultiple len step := by
  apply (yields_lift (roundUp_of_pos len hstep)).bind_settles
  by_cases hfits : len + (step - 1) ≤ maxCount
  · rw [if_pos hfits]
    exact settles_pure rfl
  · rw [if_neg hfits]
    exact settles_fail trivial

lemma mapped_settles (m : Machine) (len : Nat) (granted : Bool) :
    (mapped m len granted : Action σ Region).Settles s (fun _ _ => True) fun r _ => r.len = len ∧ 0 < len := by
  rw [mapped]
  split
  · exact settles_fail trivial
  · next hpos =>
    split
    · exact settles_fail trivial
    · exact (yields_say _).bind_settles (settles_pure ⟨rfl, Nat.pos_of_ne_zero hpos⟩)

lemma reserve_huge_settles (hsize : m.hugePageSize = .ok size) (hpos : 0 < size) (len : Nat) :
    (reserve m .huge len : Action σ Region).Settles s (fun _ _ => True) fun r _ =>
      r.len = leastMultiple len size ∧ 0 < r.len := by
  apply (yields_lift hsize).bind_settles
  refine (rounded_settles len hpos).bind fun n t hn => ?_
  refine (mapped_settles m n _).mono (fun _ _ h => h) ?_
  rintro r u ⟨hr, hn'⟩
  exact ⟨hr.trans hn, hr ▸ hn'⟩

lemma reserve_huge_faults_iff (s : σ) (len : Nat) :
    (reserve m .huge len : Action σ Region).Faults s ↔ m.Oversized ∨ m.told.pageSize = some 0 := by
  by_cases hlarge : m.Oversized
  · have hfaults : (liftM m.hugePageSize : Action σ Nat).Faults s :=
      faults_lift_iff.mpr (Machine.hugePageSize_fault_iff.mpr hlarge)
    exact iff_of_true (hfaults.bind _) (.inl hlarge)
  · have hsize := Machine.hugePageSize_told hlarge
    rw [or_iff_right hlarge]
    by_cases hzero : m.told.pageSize = some 0
    · rw [hzero, Option.getD_some] at hsize
      have hfaults : (rounded len 0 : Action σ Nat).Faults s :=
        (faults_lift_iff.mpr ⟨_, roundUp_eq_error_iff.mpr ⟨rfl, rfl⟩⟩).bind _
      exact iff_of_true ((yields_lift hsize).faults_iff.mpr (hfaults.bind _)) hzero
    · exact iff_of_false (reserve_huge_settles hsize (Machine.hugePageSize_pos hzero) len).not_faults hzero

lemma len_of_reserve_huge {r : Region} (h : ((reserve m .huge len : Action σ Region).run s).result = .ok r) :
    ∃ size, m.hugePageSize = .ok size ∧ 0 < r.len ∧ size ∣ r.len ∧ len ≤ r.len ∧ r.len < len + size := by
  have hsound : ¬(reserve m .huge len : Action σ Region).Faults s := by
    rintro ⟨f, hf⟩
    cases h.symm.trans hf
  rw [reserve_huge_faults_iff, not_or] at hsound
  obtain ⟨hlarge, hzero⟩ := hsound
  have hsize := Machine.hugePageSize_told hlarge
  have hpos := Machine.hugePageSize_pos hzero
  obtain ⟨hlen, hr⟩ := (reserve_huge_settles hsize hpos len).post ⟨h, rfl⟩
  obtain ⟨⟨hle, hdvd⟩, _⟩ := isLeast_leastMultiple len hpos
  have hlt := leastMultiple_le len (m.told.pageSize.getD defaultHugePageSize)
  exact ⟨_, hsize, hr, hlen ▸ hdvd, hlen ▸ hle, by omega⟩

end Region

namespace Arena

lemma reserve_huge_faults_iff (s : σ) (len : Nat) : (reserve m ⟨.huge, .reported⟩ len : Action σ Arena).Faults s ↔
    m.Oversized ∨ if len = 0 then m.Overfull else m.told.pageSize = some 0 := by
  have hrest (wanted : Nat) (t : σ) : (do
      let region ← Region.reserve m .huge wanted
      say (.arenaReserved region.len region.base)
      return ofRegion region : Action σ Arena).Faults t ↔ m.Oversized ∨ m.told.pageSize = some 0 := by
    rw [← Region.reserve_huge_faults_iff t wanted]
    refine faults_bind_iff fun region u => ?_
    rintro ⟨f, hf⟩
    cases hf
  rw [reserve]
  split
  · by_cases hfault : m.Oversized ∨ m.Overfull
    · have hfaults : (liftM (m.capacity ⟨.huge, .reported⟩) : Action σ (Option Nat)).Faults s :=
        faults_lift_iff.mpr (Machine.freeHugeBytes_fault_iff.mpr hfault)
      exact iff_of_true (hfaults.bind _) hfault
    · refine iff_of_false (fun hfaults => ?_) hfault
      cases hfree : m.freeHugeBytes with
      | error f => exact hfault (Machine.freeHugeBytes_fault_iff.mp ⟨f, hfree⟩)
      | ok offered =>
        have hcapacity : m.capacity ⟨.huge, .reported⟩ = .ok offered := hfree
        rw [(yields_lift hcapacity).faults_iff] at hfaults
        split at hfaults
        · next n hoffered =>
          obtain ⟨rfl, hpos⟩ := Option.filter_eq_some_iff.mp hoffered
          obtain ⟨free, size, htold, rfl⟩ := Machine.told_of_freeHugeBytes (fun h => hfault (.inl h)) hfree
          -- Pages of no bytes leave none free, so this request cannot be the one that such pages fault on.
          rcases (hrest _ s).mp hfaults with hlarge | hzero
          · exact hfault (.inl hlarge)
          · rw [htold] at hzero
            obtain rfl := Option.some.inj hzero
            simp at hpos
        · exact not_faults_fail _ hfaults
  · exact (yields_pure len).faults_iff.trans (hrest len s)

end Arena

namespace Machine

/-- Of the arithmetic on a report, each step that is not made safe has its report on which it faults: the page size
in bytes, the number of pages times that, and one less than a page. On no other report does a probe or a reservation
fault, and pages reserved are what was asked for, rounded up. -/
theorem probing_faults_exactly (m : Machine) (len : Nat) (s : σ) :
    ((∃ f, m.hugePageSize = .error f) ↔ m.Oversized) ∧
    ((∃ f, m.freeHugeBytes = .error f) ↔ m.Oversized ∨ m.Overfull) ∧
    ((Region.reserve m .huge len : Action σ Region).Faults s ↔ m.Oversized ∨ m.told.pageSize = some 0) ∧
    ((Arena.reserve m ⟨.huge, .reported⟩ len : Action σ Arena).Faults s ↔
      m.Oversized ∨ if len = 0 then m.Overfull else m.told.pageSize = some 0) ∧
    ∀ r, ((Region.reserve m .huge len : Action σ Region).run s).result = .ok r →
      ∃ size, m.hugePageSize = .ok size ∧ 0 < r.len ∧ size ∣ r.len ∧ len ≤ r.len ∧ r.len < len + size :=
  ⟨hugePageSize_fault_iff, freeHugeBytes_fault_iff, Region.reserve_huge_faults_iff s len,
    Arena.reserve_huge_faults_iff s len, fun _ => Region.len_of_reserve_huge⟩

theorem probing_unreported : ∃ r size,
    ((Region.reserve { plain with hugeLimit := 4194304 } .huge 2097153 : Action Unit Region).run ()).result = .ok r ∧
    { plain with hugeLimit := 4194304 }.hugePageSize = .ok size ∧ size ∣ r.len ∧ r.len < 2097153 + size := by
  obtain ⟨_, _, _, _, hreserved⟩ := probing_faults_exactly { plain with hugeLimit := 4194304 } 2097153 ()
  obtain ⟨size, hsize, _, hdvd, _, hlt⟩ := hreserved ⟨4096, 4194304⟩ rfl
  exact ⟨_, size, rfl, hsize, hdvd, hlt⟩

def reporting (report : String) : Machine := { plain with meminfo := some report.toUTF8 }

theorem probing_overflows :
    (reporting "HugePages_Free: 9007199254740992\nHugepagesize: 2048 kB\n").freeHugeBytes = .error .mulOverflow ∧
    (reporting "Hugepagesize: 18014398509481984 kB\n").hugePageSize = .error .mulOverflow ∧
    (Region.reserve (reporting "Hugepagesize: 0 kB\n") .huge 1 : Action Unit Region).Faults () := by
  refine ⟨by decide +kernel, by decide +kernel, (Region.reserve_huge_faults_iff () 1).mpr (.inr ?_)⟩
  decide +kernel

end Machine

end BitStore
