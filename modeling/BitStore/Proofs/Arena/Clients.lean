import BitStore.Proofs.Arena.History
import BitStore.Proofs.Arena.Payloads

namespace BitStore

open BitStore.Action Segment

lemma Memory.byte_copy {source target n : Nat} (hs : source % 8 = 0) (ht : target % 8 = 0) (hn : n % 8 = 0)
    (m : Memory) (a : Nat) :
    (m.copyWords (source / 8) (target / 8) (n / 8)).byte a =
      if target ≤ a ∧ a < target + n then m.byte (source + (a - target)) else m.byte a := by
  rw [byte_copyWords]
  by_cases ha : target ≤ a ∧ a < target + n
  · have haddr : 8 * (source / 8 + (a / 8 - target / 8)) + a % 8 = source + (a - target) := by omega
    rw [if_pos ha, if_pos (by omega), haddr]
  · rw [if_neg ha, if_neg (by omega)]

namespace Arena

def Call.live (live : List Nat) : Call → Except Stop Answer → List Nat
  | allocate _, .ok (.address q) => q :: live
  | resize p _, .ok (.address q) => q :: live.erase p
  | giveBack p, .ok _ => live.erase p
  | _, _ => live

namespace Call

lemma live_error (live : List Nat) (k : Call) (e : Stop) : k.live live (.error e) = live := by
  cases k <;> rfl

lemma live_idle {live : List Nat} {k : Call} {v : Answer} (hnull : 0 ∉ live) (hallocate : ∀ n, k ≠ .allocate n)
    (hresize : ∀ p n, k ≠ .resize p n) (hgive : ∀ p, k = .giveBack p → p = 0) : k.live live (.ok v) = live := by
  cases k with
  | allocate n => exact absurd rfl (hallocate n)
  | resize p n => exact absurd rfl (hresize p n)
  | giveBack p =>
    obtain rfl := hgive p rfl
    exact List.erase_of_not_mem hnull
  | usableSize p => rfl
  | owns p => rfl
  | stats => rfl

lemma of_map_ok {α β : Type} {f : α → β} {r : Except StoreError (α × Tiling)} {v : β} {u : Tiling}
    (h : r.map (Prod.map f id) = .ok (v, u)) : ∃ w, r = .ok (w, u) ∧ f w = v := by
  cases r with
  | error e => cases h
  | ok r =>
    obtain ⟨rfl, rfl⟩ := Prod.mk.inj (Except.ok.inj h)
    exact ⟨r.1, rfl, rfl⟩

lemma of_map_error {α β : Type} {f : α → β} {r : Except StoreError (α × Tiling)} {e : StoreError}
    (h : r.map (Prod.map f id) = .error e) : r = .error e := by
  cases r with
  | error e' => exact congrArg Except.error (Except.error.inj h)
  | ok r => cases h

end Call

end Arena

namespace Tiling

open Arena

inductive Step (t : Tiling) : Call → Answer → Tiling → Prop
  | allocated {k : Call} {n q : Nat} {u : Tiling} : k = .allocate n ∨ k = .resize 0 n →
      t.allocate n = .ok (q, u) → Step t k (.address q) u
  | resized {p n q : Nat} {u : Tiling} : p ≠ 0 → t.resize p n = .ok (q, u) →
      Step t (.resize p n) (.address q) u
  | freed {p : Nat} {u : Tiling} : p ≠ 0 → t.giveBack p = .ok ((), u) → Step t (.giveBack p) .done u
  | idle {k : Call} {v : Answer} : (∀ n, k ≠ .allocate n) → (∀ p n, k ≠ .resize p n) →
      (∀ p, k = .giveBack p → p = 0) → Step t k v t

lemma step_of_ok {t u : Tiling} {k : Call} {v : Answer} (hk : k.onTiling t = .ok (v, u)) : t.Step k v u := by
  cases k with
  | allocate n =>
    obtain ⟨q, h, rfl⟩ := Call.of_map_ok hk
    exact .allocated (.inl rfl) h
  | resize p n =>
    obtain ⟨q, h, rfl⟩ := Call.of_map_ok hk
    by_cases hp : p = 0
    · rw [resize, if_pos hp] at h
      exact .allocated (.inr (by rw [hp])) h
    · exact .resized hp h
  | giveBack p =>
    obtain ⟨_, h, rfl⟩ := Call.of_map_ok hk
    by_cases hp : p = 0
    · rw [giveBack, if_pos hp] at h
      cases h
      exact .idle (by simp) (by simp) (by rintro _ ⟨⟩; exact hp)
    · exact .freed hp h
  | usableSize p =>
    rw [Call.onTiling] at hk
    cases hsize : t.usableSize p <;> rw [hsize] at hk <;> cases hk
    exact .idle (by simp) (by simp) (by simp)
  | owns p =>
    cases hk
    exact .idle (by simp) (by simp) (by simp)
  | stats =>
    cases hk
    exact .idle (by simp) (by simp) (by simp)

variable {t u : Tiling} {live : List Nat} {n p q : Nat}

def byte (t : Tiling) (p : Nat) : UInt8 := t.memory.byte (p - t.region.base)

structure Carries (t u : Tiling) (live : List Nat) : Prop where
  region : u.region = t.region
  holds : live.Perm (u.payloads.map Prod.fst)
  bytes : ∀ p size, (p, size) ∈ t.payloads → p ∈ live → ∀ i < size, u.byte (p + i) = t.byte (p + i)

lemma carries_same (hlive : live.Perm (t.payloads.map Prod.fst)) : t.Carries t live :=
  ⟨rfl, hlive, fun _ _ _ _ _ _ => rfl⟩

lemma byte_eq (hregion : u.region = t.region) (hmemory : u.memory = t.memory) (p : Nat) :
    u.byte p = t.byte p := by
  rw [byte, byte, hregion, hmemory]

lemma allocate_carries (hlive : live.Perm (t.payloads.map Prod.fst)) (h : t.allocate n = .ok (q, u)) :
    t.Carries u (q :: live) := by
  obtain ⟨hregion, hmemory, k, _, hperm⟩ := allocate_payloads h
  exact ⟨hregion, (hlive.cons q).trans (hperm.map Prod.fst).symm, fun _ _ _ _ _ _ => byte_eq hregion hmemory _⟩

lemma giveBack_carries (hlive : live.Perm (t.payloads.map Prod.fst)) (hp : p ≠ 0)
    (h : t.giveBack p = .ok ((), u)) : t.Carries u (live.erase p) := by
  obtain ⟨hregion, hmemory, k, hperm⟩ := giveBack_payloads hp h
  have herase := (hlive.trans (hperm.map Prod.fst)).erase p
  rw [List.map_cons, List.erase_cons_head] at herase
  exact ⟨hregion, herase, fun _ _ _ _ _ _ => byte_eq hregion hmemory _⟩

lemma byte_copied (ht : t.Sized) {j : Nat} (hp : (p, j) ∈ t.payloads) (hq : t.region.base ≤ q)
    (hmod : (q - t.region.base) % alignment = 0) (hregion : u.region = t.region)
    (hmemory : u.memory =
      t.memory.copyWords ((p - t.region.base) / 8) ((q - t.region.base) / 8) (j / 8))
    {r : Nat} (hr : t.region.base ≤ r) :
    u.byte r = if q ≤ r ∧ r < q + j then t.byte (p + (r - q)) else t.byte r := by
  obtain ⟨hpbase, hpmod, _, hjmod, _⟩ := ht.payload hp
  rw [byte, hregion, hmemory, Memory.byte_copy hpmod hmod hjmod]
  by_cases hin : q ≤ r ∧ r < q + j
  · have haddr : p - t.region.base + (r - t.region.base - (q - t.region.base)) =
        p + (r - q) - t.region.base := by omega
    rw [if_pos hin, if_pos (by omega), haddr, byte]
  · rw [if_neg hin, if_neg (by omega), byte]

lemma resize_carries (ht : t.Sized) (hu : u.Sized) (hlive : live.Perm (t.payloads.map Prod.fst))
    (hp : p ≠ 0) (h : t.resize p n = .ok (q, u)) : t.Carries u (q :: live.erase p) ∧
      ∀ j, (p, j) ∈ t.payloads → ∀ i < min j n, u.byte (q + i) = t.byte (p + i) := by
  obtain ⟨hregion, j, k, rest, hbefore, hafter, _, hcases⟩ := resize_payloads ht hp h
  have hperm : (q :: live.erase p).Perm (u.payloads.map Prod.fst) := by
    have herase := (hlive.trans (hbefore.map Prod.fst)).erase p
    rw [List.map_cons, List.erase_cons_head] at herase
    exact (herase.cons q).trans (hafter.map Prod.fst).symm
  rcases hcases with ⟨rfl, hmemory⟩ | ⟨hjk, hq, hmemory⟩
  · exact ⟨⟨hregion, hperm, fun _ _ _ _ _ _ => byte_eq hregion hmemory _⟩, fun _ _ _ _ => byte_eq hregion hmemory _⟩
  · have hpmem : (p, j) ∈ t.payloads := hbefore.mem_iff.mpr (List.mem_cons_self ..)
    have hqmem : (q, k) ∈ u.payloads := hafter.mem_iff.mpr (List.mem_cons_self ..)
    obtain ⟨hqbase, hqmod, _⟩ := hu.payload hqmem
    rw [hregion] at hqbase hqmod
    refine ⟨⟨hregion, hperm, ?_⟩, ?_⟩
    · intro r size hr hrlive i hi
      have hrbase := (ht.payload hr).1
      have hqr : q ≠ r := by
        rintro rfl
        exact hq (List.mem_map_of_mem hr)
      -- The old payload is gone: only `rest` and the new one are live.
      have hrmem : (r, size) ∈ u.payloads := by
        rcases List.mem_cons.mp (hbefore.mem_iff.mp hr) with heq | hrest
        · obtain ⟨rfl, rfl⟩ := Prod.mk.inj heq
          have hnodup := (hbefore.map Prod.fst).nodup_iff.mp ht.starts
          rcases List.mem_cons.mp ((hafter.map Prod.fst).mem_iff.mp (hperm.mem_iff.mp hrlive)) with heq | hrest
          · exact absurd heq.symm hqr
          · exact absurd hrest (List.nodup_cons.mp hnodup).1
        · exact hafter.mem_iff.mpr (List.mem_cons_of_mem _ hrest)
      have hclear : q + k ≤ r ∨ r + size ≤ q :=
        payloads_clear hqmem hrmem fun heq => hqr (congrArg Prod.fst heq)
      rw [byte_copied ht hpmem hqbase hqmod hregion hmemory (by omega), if_neg (by omega)]
    · intro j' hj' i hi
      have hjj : (p, j') = (p, j) := List.inj_on_of_nodup_map ht.starts hj' hpmem rfl
      obtain ⟨_, rfl⟩ := Prod.mk.inj hjj
      rw [byte_copied ht hpmem hqbase hqmod hregion hmemory (by omega), if_pos (by omega),
        Nat.add_sub_cancel_left]

lemma call_ok {k : Call} {v : Answer} (h : k.onTiling t = .ok (v, u)) : t.call k = (.ok v, u) := by
  rw [call, h]

lemma call_error {k : Call} {e : StoreError} (h : k.onTiling t = .error e) :
    t.call k = (.error (.error e), t) := by
  rw [call, h]

lemma call_carries (ht : t.Sized) (hbase : 0 < t.region.base) (hlive : live.Perm (t.payloads.map Prod.fst))
    (k : Call) (hu : (t.call k).2.Sized) : t.Carries (t.call k).2 (k.live live (t.call k).1) := by
  have hnull : 0 ∉ live := by
    intro hmem
    obtain ⟨⟨p, size⟩, hp, rfl⟩ := List.mem_map.mp (hlive.mem_iff.mp hmem)
    have hle := (ht.payload hp).1
    omega
  cases hk : k.onTiling t with
  | error e =>
    rw [call_error hk, Call.live_error]
    exact carries_same hlive
  | ok r =>
    obtain ⟨v, u⟩ := r
    have hstep := step_of_ok hk
    rw [call_ok hk] at hu ⊢
    clear hk
    cases hstep with
    | allocated hk h =>
      rcases hk with rfl | rfl
      · exact allocate_carries hlive h
      · rw [Call.live, List.erase_of_not_mem hnull]
        exact allocate_carries hlive h
    | resized hp h => exact (resize_carries ht hu hlive hp h).1
    | freed hp h => exact giveBack_carries hlive hp h
    | idle hallocate hresize hgive =>
      rw [Call.live_idle hnull hallocate hresize hgive]
      exact carries_same hlive

end Tiling

namespace Arena

variable {a : Arena} {l : List Node} {p size : Nat}

def Usable (a : Arena) (p size : Nat) : Prop := ((usableSize p).run a).result = .ok size

lemma Layout.tiling_sized (ha : a.Layout l) : (a.tiling l).Sized := by
  intro s hs
  obtain ⟨n, hn, rfl⟩ := List.mem_map.mp hs
  exact ⟨(ha.sized n hn).pos, (ha.sized n hn).2⟩

lemma Layout.usable_iff (ha : a.Layout l) : a.Usable p size ↔ (p, size) ∈ (a.tiling l).payloads := by
  have hfollows := usableSize_follows ha p
  rw [Tiling.usableSize] at hfollows
  constructor
  · intro h
    cases hheld : (a.tiling l).held? p with
    | none =>
      rw [hheld] at hfollows
      rw [Usable, hfollows.1] at h
      cases h
    | some x =>
      rw [hheld] at hfollows
      obtain ⟨_, _, ⟨hresult, _⟩, rfl, _⟩ := hfollows
      rw [Usable, hresult] at h
      obtain rfl := Except.ok.inj h
      rw [Tiling.held?_payloads hheld]
      simp
  · intro h
    obtain ⟨xs, ys, hsplit, hp⟩ := mem_payloads.mp h
    have hheld := Tiling.held?_at hsplit ha.pos hp
    rw [hheld] at hfollows
    obtain ⟨_, _, ⟨hresult, _⟩, rfl, _⟩ := hfollows
    exact hresult

lemma Fresh.usable_after (ha : a.Fresh) (calls : List Call) : (a.after calls).Usable p size ↔
    (p, size) ∈ ((Tiling.mk a.region [] a.memory).after calls).payloads := by
  obtain ⟨l, hl, htiling⟩ := ha.after_layout calls
  rw [hl.usable_iff, htiling]

lemma Layout.usable_pos (ha : a.Layout l) (h : a.Usable p size) : p ≠ 0 := by
  rintro rfl
  have hle := (ha.tiling_sized.payload (ha.usable_iff.mp h)).1
  exact absurd hle (Nat.not_le.mpr ha.placed.base_pos)

end Arena

open Arena

structure Client where
  arena : Arena
  live : List Nat

namespace Client

def call (c : Client) (k : Call) : Client :=
  ⟨(k.action.run c.arena).state, k.live c.live (k.action.run c.arena).result⟩

/-- What a client may come to, from a reservation on: it calls as it likes and writes to what is live. -/
inductive Reached : Client → Prop
  | start {a : Arena} : a.Fresh → Reached ⟨a, []⟩
  | call {c : Client} (k : Call) : c.Reached → (c.call k).Reached
  | write {c : Client} {p size i n : Nat} (f : Nat → UInt8) : c.Reached → p ∈ c.live → c.arena.Usable p size →
      i + n ≤ size → Reached { c with arena := c.arena.setBytes (p + i) f n }

variable {c : Client} {l : List Node}

structure Holds (c : Client) (l : List Node) : Prop where
  layout : c.arena.Layout l
  live : c.live.Perm ((c.arena.tiling l).payloads.map Prod.fst)

lemma Holds.mem_live (hc : c.Holds l) {p size : Nat} (hp : c.arena.Usable p size) : p ∈ c.live :=
  hc.live.mem_iff.mpr (List.mem_map_of_mem (hc.layout.usable_iff.mp hp))

lemma Holds.call (hc : c.Holds l) (k : Call) :
    ∃ l', (c.call k).Holds l' ∧
      (c.arena.tiling l).Carries ((c.call k).arena.tiling l') (c.call k).live := by
  obtain ⟨hresult, l', hlayout, htiling⟩ := call_layout hc.layout k
  have hsized : ((c.arena.tiling l).call k).2.Sized := htiling ▸ hlayout.tiling_sized
  have hcarries := Tiling.call_carries hc.layout.tiling_sized hc.layout.placed.base_pos hc.live k hsized
  rw [← hresult, ← htiling] at hcarries
  exact ⟨l', ⟨hlayout, hcarries.holds⟩, hcarries⟩

lemma Reached.holds (hc : c.Reached) : ∃ l, c.Holds l := by
  induction hc with
  | start ha => exact ⟨[], ha.layout, .refl _⟩
  | call k _ ih =>
    obtain ⟨l, hl⟩ := ih
    obtain ⟨l', hl', _⟩ := hl.call k
    exact ⟨l', hl'⟩
  | write f _ _ _ _ ih =>
    obtain ⟨l, hl⟩ := ih
    exact ⟨l, hl.layout.withMemory _, hl.live⟩

structure Isolated (c : Client) : Prop where
  usable : ∀ p, p ∈ c.live ↔ ∃ size, c.arena.Usable p size
  distinct : c.live.Nodup
  inside : ∀ p size, c.arena.Usable p size → c.arena.region.base ≤ p ∧
    (p - c.arena.region.base) % alignment = 0 ∧ p + size ≤ c.arena.region.base + c.arena.top
  top_le : c.arena.top ≤ c.arena.region.len
  apart : ∀ p m q n, c.arena.Usable p m → c.arena.Usable q n → p ≠ q → p + m ≤ q ∨ q + n ≤ p
  kept : ∀ k p size, c.arena.Usable p size → p ∈ (c.call k).live →
    ∀ i < size, (c.call k).arena.byte (p + i) = c.arena.byte (p + i)
  copied : ∀ p n q size, c.arena.Usable p size → ((resize p n).run c.arena).result = .ok q →
    ∀ i < min size n, ((resize p n).run c.arena).state.byte (q + i) = c.arena.byte (p + i)

lemma Holds.copied (hc : c.Holds l) {p n q size : Nat} (hp : c.arena.Usable p size)
    (hq : ((resize p n).run c.arena).result = .ok q) {i : Nat} (hi : i < min size n) :
    ((resize p n).run c.arena).state.byte (q + i) = c.arena.byte (p + i) := by
  have hmem := hc.layout.usable_iff.mp hp
  have hnull := hc.layout.usable_pos hp
  have hfollows := resize_follows hc.layout p n
  cases h : (c.arena.tiling l).resize p n with
  | error e =>
    rw [h] at hfollows
    rw [hfollows.1] at hq
    cases hq
  | ok r =>
    obtain ⟨v, u⟩ := r
    rw [h] at hfollows
    obtain ⟨_, t, ⟨hresult, rfl⟩, rfl, l', ht, rfl, _⟩ := hfollows
    rw [hresult] at hq
    obtain rfl := Except.ok.inj hq
    obtain ⟨_, hbytes⟩ := Tiling.resize_carries hc.layout.tiling_sized ht.tiling_sized hc.live hnull h
    exact hbytes size hmem i hi

theorem reached_isolated (hc : c.Reached) : c.Isolated := by
  obtain ⟨l, hl⟩ := hc.holds
  have hsized := hl.layout.tiling_sized
  refine ⟨?_, ?_, ?_, hl.layout.top_le, ?_, ?_, fun p n q size hp hq i hi => hl.copied hp hq hi⟩
  · intro p
    rw [hl.live.mem_iff, List.mem_map]
    constructor
    · rintro ⟨⟨p, size⟩, hp, rfl⟩
      exact ⟨size, hl.layout.usable_iff.mpr hp⟩
    · rintro ⟨size, hp⟩
      exact ⟨(p, size), hl.layout.usable_iff.mp hp, rfl⟩
  · exact hl.live.nodup_iff.mpr hsized.starts
  · intro p size hp
    obtain ⟨hbase, hmod, _, _, hstop⟩ := hsized.payload (hl.layout.usable_iff.mp hp)
    rw [hl.layout.top_eq] at hstop
    exact ⟨hbase, hmod, hstop⟩
  · intro p m q n hp hq hpq
    exact Tiling.payloads_clear (hl.layout.usable_iff.mp hp) (hl.layout.usable_iff.mp hq)
      fun heq => hpq (congrArg Prod.fst heq)
  · intro k p size hp hlive
    obtain ⟨l', _, hcarries⟩ := hl.call k
    exact hcarries.bytes p size (hl.layout.usable_iff.mp hp) hlive

lemma page_usable : (page.after [.allocate 100]).Usable 4096 104 := by
  rw [Usable]
  decide +kernel

lemma page_written (f : Nat → UInt8) :
    Reached ⟨(page.after [.allocate 100]).setBytes (4096 + 8) f 96, [4096]⟩ :=
  .write f (.call (.allocate 100) (.start page_fresh)) (by decide +kernel) page_usable (by decide)

theorem reached_isolated_page :
    (((Client.mk ((page.after [.allocate 100]).setBytes (4096 + 8) .ofNat 96) [4096]).call
      (.allocate 40)).call (.resize 4096 200)).Isolated :=
  reached_isolated (.call _ (.call _ (page_written _)))

end Client

end BitStore
