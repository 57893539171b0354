import BitStore.Proofs.Arena.Pointers

namespace BitStore

open BitStore.Action Segment

namespace Segment

lemma Serves.tight {size k : Nat} (h : Serves size k) (hsize : size % alignment = 0) (hk : k % alignment = 0) :
    k ≤ size + 24 := by
  obtain ⟨hle, hlt⟩ := h
  simp only [alignment, minBlockSize] at hsize hk hlt
  omega

end Segment

namespace Tiling

open Arena

variable {t u : Tiling} {k : Call} {v : Answer} {n p q size : Nat}

lemma mem_of_perm_cons {ps rest : List (Nat × Nat)} {j : Nat} (hps : ps.Perm ((p, j) :: rest)) (hq : (q, size) ∈ ps)
    (hne : q ≠ p) : (q, size) ∈ rest := by
  refine (List.mem_cons.mp (hps.mem_iff.mp hq)).resolve_left fun heq => hne ?_
  exact congrArg Prod.fst heq

lemma served (ht : t.Sized) (hk : k = .allocate n ∨ ∃ p, k = .resize p n)
    (h : t.Step k (.address q) u) : ∃ size, Serves (sizeFor n) size ∧ (q, size) ∈ u.payloads := by
  cases h with
  | @allocated _ m _ _ hk' h =>
    obtain rfl : m = n := by
      rcases hk' with rfl | rfl <;> rcases hk with hk | ⟨p, hk⟩ <;> cases hk <;> rfl
    obtain ⟨_, _, size, hserves, hperm⟩ := allocate_payloads h
    exact ⟨size, hserves, hperm.mem_iff.mpr (List.mem_cons_self ..)⟩
  | @resized p m _ _ hp h =>
    obtain rfl : m = n := by
      rcases hk with hk | ⟨p, hk⟩ <;> cases hk
      rfl
    obtain ⟨_, _, size, _, _, hperm, hserves, _⟩ := resize_payloads ht hp h
    exact ⟨size, hserves, hperm.mem_iff.mpr (List.mem_cons_self ..)⟩
  | idle hallocate hresize _ =>
    rcases hk with hk | ⟨p, hk⟩
    · exact absurd hk (hallocate n)
    · exact absurd hk (hresize p n)

lemma payload_kept (ht : t.Sized) (hq : (q, size) ∈ t.payloads) (hfreed : k ≠ .giveBack q)
    (hresized : ∀ n, k ≠ .resize q n) (h : t.Step k v u) : (q, size) ∈ u.payloads := by
  cases h with
  | allocated _ h =>
    obtain ⟨_, _, _, _, hperm⟩ := allocate_payloads h
    exact hperm.mem_iff.mpr (List.mem_cons_of_mem _ hq)
  | resized hp h =>
    obtain ⟨_, _, _, rest, hbefore, hafter, _⟩ := resize_payloads ht hp h
    refine hafter.mem_iff.mpr (List.mem_cons_of_mem _ (mem_of_perm_cons hbefore hq ?_))
    rintro rfl
    exact hresized _ rfl
  | freed hp h =>
    obtain ⟨_, _, _, hperm⟩ := giveBack_payloads hp h
    refine mem_of_perm_cons hperm hq ?_
    rintro rfl
    exact hfreed rfl
  | idle => exact hq

end Tiling

namespace Arena

variable {a : Arena} {l : List Node} {k : Call} {q size : Nat}

def Takes (a : Arena) (q : Nat) (k : Call) : Prop :=
  (k = .giveBack q ∨ ∃ n, k = .resize q n) ∧ ∃ v, (k.action.run a).result = .ok v

lemma Layout.usable_call (ha : a.Layout l) (hq : a.Usable q size) (hk : ¬a.Takes q k) :
    (k.action.run a).state.Usable q size := by
  rw [ha.usable_iff] at hq
  cases h : k.onTiling (a.tiling l) with
  | error e =>
    obtain ⟨_, l', ha', htiling⟩ := call_layout ha k
    rwa [ha'.usable_iff, htiling, Tiling.call_error h]
  | ok r =>
    obtain ⟨v, u⟩ := r
    obtain ⟨hresult, l', ha', rfl⟩ := ha.call_ok h
    rw [ha'.usable_iff]
    refine Tiling.payload_kept ha.tiling_sized hq ?_ ?_ (Tiling.step_of_ok h)
    · exact fun heq => hk ⟨.inl heq, v, hresult⟩
    · exact fun n heq => hk ⟨.inr ⟨n, heq⟩, v, hresult⟩

lemma Layout.usable_run (ha : a.Layout l) (hq : a.Usable q size) (calls : List Call)
    (hspared : ∀ before k after, calls = before ++ k :: after → ¬(a.after before).Takes q k) :
    (a.after calls).Usable q size := by
  induction calls generalizing a l with
  | nil => exact hq
  | cons k rest ih =>
    obtain ⟨_, l', ha', _⟩ := call_layout ha k
    refine ih ha' (ha.usable_call hq (hspared [] k rest rfl)) ?_
    rintro before k' after rfl
    exact hspared (k :: before) k' after rfl

end Arena

open Arena

namespace Client

variable {c : Client} {k : Call} {n q : Nat}

/-- A request is served with what it needs, rounded, and 24 bytes more at most. The size stays until the
allocation itself is given back or resized, whatever else is asked for in between. -/
theorem sizes_tight_and_stable (hc : c.Reached) (hk : k = .allocate n ∨ ∃ p, k = .resize p n)
    (hq : (k.action.run c.arena).result = .ok (.address q)) :
    ∃ size, Tiling.sizeFor n ≤ size ∧ size ≤ Tiling.sizeFor n + 24 ∧ size % alignment = 0 ∧
      (c.call k).arena.Usable q size ∧
      ∀ calls, (∀ before k' after, calls = before ++ k' :: after →
          ¬((c.call k).after before).arena.Takes q k') → ((c.call k).after calls).arena.Usable q size := by
  obtain ⟨l, hl⟩ := hc.holds
  obtain ⟨u, hu⟩ := hl.layout.onTiling_ok hq
  obtain ⟨size, hserves, hmem⟩ := Tiling.served hl.layout.tiling_sized hk (Tiling.step_of_ok hu)
  obtain ⟨_, l', hlayout, rfl⟩ := hl.layout.call_ok hu
  have husable : (c.call k).arena.Usable q size := hlayout.usable_iff.mpr hmem
  obtain ⟨_, _, _, hmod, _⟩ := hlayout.tiling_sized.payload hmem
  refine ⟨size, hserves.1, hserves.tight (sizeFor_mod n) hmod, hmod, husable, fun calls hspared => ?_⟩
  simp only [after_arena] at hspared ⊢
  exact Layout.usable_run hlayout husable calls hspared

theorem sizes_tight_and_stable_holed :
    ((Call.allocate 80).action.run holed.arena).result = .ok (.address 4128) ∧
      (holed.call (.allocate 80)).arena.Usable 4128 104 ∧
      ((holed.call (.allocate 80)).after [.giveBack 4096, .resize 4232 200]).arena.Usable 4128 104 := by
  have hserved : ((Call.allocate 80).action.run holed.arena).result = .ok (.address 4128) := by
    rw [holed_arena, page_fresh.result_after]
    decide
  obtain ⟨size, _, _, _, husable, hstable⟩ := sizes_tight_and_stable holed_reached (.inl rfl) hserved
  have hwhole : (holed.call (.allocate 80)).arena.Usable 4128 104 := by
    change (holed.after [.allocate 80]).arena.Usable 4128 104
    rw [holed, ← after_append, after_arena, page_fresh.usable_after]
    decide
  obtain rfl : size = 104 := Except.ok.inj (husable.symm.trans hwhole)
  refine ⟨hserved, hwhole, hstable _ ?_⟩
  rintro before k after heq ⟨hk, _⟩
  have hmem : k ∈ [Call.giveBack 4096, .resize 4232 200] := by
    rw [heq]
    simp
  rcases hk with rfl | ⟨n, rfl⟩ <;> simp at hmem

end Client

end BitStore
