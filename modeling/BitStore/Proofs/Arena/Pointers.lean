import BitStore.Proofs.Arena.Failure

namespace BitStore

open BitStore.Action Segment

namespace Tiling

open Arena

variable {t : Tiling} {n p q size : Nat}

lemma held?_eq_none_iff : t.held? p = none ↔ p ∉ t.payloads.map Prod.fst := by
  constructor
  · intro h hmem
    obtain ⟨⟨_, size⟩, hp, rfl⟩ := List.mem_map.mp hmem
    obtain ⟨xs, ys, hsplit, hstart⟩ := mem_payloads.mp hp
    exact held?_eq_none h (x := ⟨xs, ⟨size, false⟩, ys⟩) hsplit rfl hstart
  · intro h
    cases hheld : t.held? p with
    | none => rfl
    | some x =>
      refine absurd ?_ h
      rw [held?_payloads hheld]
      simp

lemma grow_ne_invalid : t.grow size ≠ .error (.invalidPointer q) := by
  rw [grow]
  split <;> split <;> simp

lemma allocate_ne_invalid : t.allocate n ≠ .error (.invalidPointer q) := by
  rw [allocate]
  split
  · simp
  · split
    · simp
    · exact grow_ne_invalid

lemma giveBack_invalid_iff (hp : p ≠ 0) :
    t.giveBack p = .error (.invalidPointer q) ↔ t.held? p = none ∧ p = q := by
  rw [giveBack, if_neg hp]
  cases t.held? p <;> simp

lemma usableSize_invalid_iff : t.usableSize p = .error (.invalidPointer q) ↔ t.held? p = none ∧ p = q := by
  rw [usableSize]
  cases t.held? p <;> simp

lemma resize_invalid_iff (hp : p ≠ 0) :
    t.resize p n = .error (.invalidPointer q) ↔ t.held? p = none ∧ p = q := by
  rw [resize, if_neg hp]
  cases hheld : t.held? p with
  | none => simp
  | some x =>
    simp only [reduceCtorEq, false_and, iff_false]
    split
    · simp
    split
    · simp
    split
    · simp
    · rw [move_error_iff hheld]
      exact allocate_ne_invalid

end Tiling

namespace Arena

variable {p q : Nat}

namespace Call

/-- The pointer that a call takes for a live one. A resize of null allocates, and null is nothing to
give back. -/
def pointer? : Call → Option Nat
  | .resize p _ | .giveBack p => if p = 0 then none else some p
  | .usableSize p => some p
  | .allocate _ | .owns _ | .stats => none

lemma map_error_iff {α β : Type} {r : Except StoreError α} {f : α → β} {e : StoreError} :
    r.map f = .error e ↔ r = .error e := by
  cases r <;> simp [Except.map]

lemma onTiling_invalid_iff {t : Tiling} {k : Call} :
    k.onTiling t = .error (.invalidPointer q) ↔ k.pointer? = some q ∧ t.held? q = none := by
  have hpointer (p : Nat) : t.held? p = none ∧ p = q ↔ some p = some q ∧ t.held? q = none := by
    rw [Option.some.injEq, and_comm]
    exact and_congr_right fun h => by rw [h]
  cases k with
  | allocate n => simp [onTiling, pointer?, map_error_iff, Tiling.allocate_ne_invalid]
  | resize p n =>
    rw [onTiling, map_error_iff, pointer?]
    by_cases hp : p = 0
    · simp [hp, Tiling.resize, Tiling.allocate_ne_invalid]
    · rw [Tiling.resize_invalid_iff hp, if_neg hp, hpointer]
  | giveBack p =>
    rw [onTiling, map_error_iff, pointer?]
    by_cases hp : p = 0
    · simp [hp, Tiling.giveBack]
    · rw [Tiling.giveBack_invalid_iff hp, if_neg hp, hpointer]
  | usableSize p => rw [onTiling, map_error_iff, pointer?, Tiling.usableSize_invalid_iff, hpointer]
  | owns p => simp [onTiling, pointer?]
  | stats => simp [onTiling, pointer?]

lemma mem_live {live : List Nat} {k : Call} {r : Except Stop Answer} (h : p ∈ k.live live r) :
    p ∈ live ∨ r = .ok (.address p) := by
  unfold Call.live at h
  split at h
  · rcases List.mem_cons.mp h with rfl | h
    · exact .inr rfl
    · exact .inl h
  · rcases List.mem_cons.mp h with rfl | h
    · exact .inr rfl
    · exact .inl (List.mem_of_mem_erase h)
  · exact .inl (List.mem_of_mem_erase h)
  · exact .inl h

end Call

def Rejects (a : Arena) (k : Call) (p : Nat) : Prop :=
  (k.action.run a).result = .error (.error (.invalidPointer p))

/-- The call succeeds and leaves nothing at `p`, because it gives `p` back or moves what was there. -/
inductive Retires (a : Arena) (p : Nat) : Call → Prop
  | freed : p ≠ 0 → ((Call.giveBack p).action.run a).result = .ok .done → Retires a p (.giveBack p)
  | moved {n q : Nat} : p ≠ 0 → ((Call.resize p n).action.run a).result = .ok (.address q) → q ≠ p →
      Retires a p (.resize p n)

end Arena

open Arena

namespace Client

variable {c : Client} {l : List Node} {k : Call} {p : Nat}

def after (c : Client) : List Call → Client
  | [] => c
  | k :: rest => (c.call k).after rest

lemma after_arena (c : Client) (calls : List Call) : (c.after calls).arena = c.arena.after calls := by
  induction calls generalizing c with
  | nil => rfl
  | cons k rest ih => exact ih (c.call k)

lemma after_append (c : Client) (before rest : List Call) :
    c.after (before ++ rest) = (c.after before).after rest := by
  induction before generalizing c with
  | nil => rfl
  | cons k before ih => exact ih (c.call k)

lemma Reached.after (hc : c.Reached) (calls : List Call) : (c.after calls).Reached := by
  induction calls generalizing c with
  | nil => exact hc
  | cons k rest ih => exact ih (hc.call k)

-- Used and free blocks in turn: 32 used, 104 free, 80 used, 200 free.
def holing : List Call :=
  [.allocate 8, .allocate 100, .allocate 80, .allocate 200, .giveBack 4128, .giveBack 4312]

def holed : Client := (Client.mk page []).after holing

lemma holed_reached : holed.Reached := .after (.start page_fresh) _

lemma holed_arena : holed.arena = page.after holing := after_arena _ _

lemma Holds.mem_live_iff (hc : c.Holds l) : p ∈ c.live ↔ (c.arena.tiling l).held? p ≠ none := by
  rw [hc.live.mem_iff, ne_eq, Tiling.held?_eq_none_iff, not_not]

lemma Holds.nodup (hc : c.Holds l) : c.live.Nodup :=
  hc.live.nodup_iff.mpr hc.layout.tiling_sized.starts

lemma Holds.rejects_iff (hc : c.Holds l) : Rejects c.arena k p ↔ k.pointer? = some p ∧ p ∉ c.live := by
  have hresult := (call_layout hc.layout k).1
  rw [Rejects, hresult, hc.mem_live_iff, not_not, ← Call.onTiling_invalid_iff, Tiling.call]
  cases k.onTiling (c.arena.tiling l) <;> simp

lemma Reached.rejects_iff (hc : c.Reached) : Rejects c.arena k p ↔ k.pointer? = some p ∧ p ∉ c.live := by
  obtain ⟨l, hl⟩ := hc.holds
  exact hl.rejects_iff

lemma Reached.retires (hc : c.Reached) (hk : Retires c.arena p k) : p ∉ (c.call k).live := by
  obtain ⟨l, hl⟩ := hc.holds
  cases hk with
  | freed _ hresult =>
    rw [Client.call, hresult]
    exact hl.nodup.not_mem_erase
  | moved _ hresult hmoved =>
    rw [Client.call, hresult]
    simp only [Call.live, List.mem_cons, not_or]
    exact ⟨hmoved.symm, hl.nodup.not_mem_erase⟩

lemma not_mem_live_after (calls : List Call) (hp : p ∉ c.live)
    (hnever : .ok (.address p) ∉ c.arena.answers calls) : p ∉ (c.after calls).live := by
  induction calls generalizing c with
  | nil => exact hp
  | cons k rest ih =>
    rw [answers, List.mem_cons, not_or] at hnever
    refine ih (fun hmem => ?_) hnever.2
    exact (Call.mem_live hmem).elim hp fun h => hnever.1 h.symm

/-- An arena takes exactly the live pointers; any other is refused by name, and one that was given back
or moved from is refused until a call hands it out again. -/
theorem rejects_exactly (hc : c.Reached) :
    (∀ p, p ≠ 0 → (Rejects c.arena (.giveBack p) p ↔ p ∉ c.live) ∧
      ∀ n, Rejects c.arena (.resize p n) p ↔ p ∉ c.live) ∧
    (∀ p, Rejects c.arena (.usableSize p) p ↔ p ∉ c.live) ∧
    (∀ k p, Rejects c.arena k p → k.pointer? = some p) ∧
    (Call.giveBack 0).action.Yields c.arena (.ok .done) c.arena ∧
    ∀ k p calls, Retires c.arena p k → .ok (.address p) ∉ (c.call k).arena.answers calls →
      ∀ again : Call, again.pointer? = some p → Rejects ((c.call k).after calls).arena again p := by
  refine ⟨fun p hp => ⟨?_, fun n => ?_⟩, fun p => ?_, fun k p h => (hc.rejects_iff.mp h).1, ⟨rfl, rfl⟩, ?_⟩
  · simp [hc.rejects_iff, Call.pointer?, hp]
  · simp [hc.rejects_iff, Call.pointer?, hp]
  · simp [hc.rejects_iff, Call.pointer?]
  · intro k p calls hk hnever again hagain
    have hgone := not_mem_live_after calls (hc.retires hk) hnever
    exact ((hc.call k).after calls).rejects_iff.mpr ⟨hagain, hgone⟩

lemma page_answers : page.answers [.allocate 8, .allocate 40, .resize 4096 200, .stats] =
    [.ok (.address 4096), .ok (.address 4128), .ok (.address 4168), .ok (.stats ⟨4096, 272, 240, 32, 3, 1⟩)] :=
  (run_layout page_fresh.layout _).1.trans (by decide)

theorem rejects_exactly_page :
    Rejects (page.after [.allocate 8, .allocate 40]) (.giveBack 4104) 4104 ∧
      Rejects (page.after [.allocate 8, .allocate 40, .resize 4096 200, .stats]) (.giveBack 4096) 4096 := by
  have hc : (Client.mk (page.after [.allocate 8, .allocate 40]) [4128, 4096]).Reached :=
    .call (.allocate 40) (.call (.allocate 8) (.start page_fresh))
  have hanswers := page_answers
  simp only [answers, List.cons.injEq] at hanswers
  obtain ⟨_, _, hmove, hstats, _⟩ := hanswers
  obtain ⟨hlive, _, _, _, hgone⟩ := rejects_exactly hc
  refine ⟨(hlive 4104 (by decide)).1.mpr (by decide), ?_⟩
  refine hgone (.resize 4096 200) 4096 [.stats] (.moved (by decide) hmove (by decide)) ?_ (.giveBack 4096) rfl
  rw [answers, answers, List.mem_singleton]
  exact fun h => absurd (h.trans hstats) (by decide)

end Client

end BitStore
