import BitStore.Proofs.Arena.Audited

namespace BitStore

open BitStore.Action Segment

namespace Arena

inductive Request where
  | call (k : Call)
  | inRegion (p : Nat)
  | audit
  deriving DecidableEq, Repr

inductive Response where
  | answer (v : Answer)
  | inside (b : Bool)
  | verdict (d : Option Defect)
  deriving DecidableEq, Repr

def Request.action : Request → Action Arena Response
  | call k => do return .answer (← k.action)
  | inRegion p => .read fun a => do return .inside (← a.inRegion p)
  | audit => .read fun a => do return .verdict (← a.audit)

def served (a : Arena) : List Request → Arena
  | [] => a
  | r :: rest => (r.action.run a).state.served rest

def responses (a : Arena) : List Request → List (Except Stop Response)
  | [] => []
  | r :: rest => (r.action.run a).result :: (r.action.run a).state.responses rest

def Regular {α : Type} (r : Except Stop α) : Prop := (∃ v, r = .ok v) ∨ ∃ e, r = .error (.error e)

variable {a : Arena} {l : List Node}

lemma Follows.regular {α : Type} {x : Action Arena α} {r : Except StoreError (α × Tiling)}
    {post : α → Arena → List Node → Prop} (ha : a.Layout l) (hx : Follows x a r post) :
    Regular (x.run a).result ∧ ∃ l', (x.run a).state.Layout l' := by
  cases r with
  | error e =>
    obtain ⟨hresult, hstate⟩ := hx
    exact ⟨.inr ⟨e, hresult⟩, l, by rwa [hstate]⟩
  | ok r =>
    obtain ⟨v, t, ⟨hresult, rfl⟩, _, l', ht, _⟩ := hx
    exact ⟨.inl ⟨v, hresult⟩, l', ht⟩

lemma regular_of_yields {α : Type} {x : Action Arena α} {v : α} (ha : a.Layout l) (hx : x.Yields a (.ok v) a) :
    Regular (x.run a).result ∧ ∃ l', (x.run a).state.Layout l' :=
  (Follows.unchanged ha hx).regular ha

lemma inRegion_ok (ha : a.Layout l) (p : Nat) : ∃ b, a.inRegion p = .ok b := by
  rw [inRegion, Region.contains, Checked.add_eq_ok_iff.mpr ⟨rfl, ha.placed.stop_le⟩]
  exact ⟨_, rfl⟩

lemma request_regular (ha : a.Layout l) (r : Request) :
    Regular (r.action.run a).result ∧ ∃ l', (r.action.run a).state.Layout l' := by
  cases r with
  | call k => exact ((call_follows ha k).map Response.answer).regular ha
  | inRegion p =>
    obtain ⟨b, hb⟩ := inRegion_ok ha p
    have hread : (do return Response.inside (← a.inRegion p)) = Except.ok (Response.inside b) := by
      rw [hb]
      rfl
    exact regular_of_yields ha (yields_read hread)
  | audit =>
    have hread : (do return Response.verdict (← a.audit)) = Except.ok (Response.verdict none) := by
      rw [ha.audit]
      rfl
    exact regular_of_yields ha (yields_read hread)

lemma requests_regular (ha : a.Layout l) (requests : List Request) :
    (∀ r ∈ a.responses requests, Regular r) ∧ ∃ l', (a.served requests).Layout l' := by
  induction requests generalizing a l with
  | nil => exact ⟨nofun, l, ha⟩
  | cons r rest ih =>
    obtain ⟨hresult, l', hlayout⟩ := request_regular ha r
    obtain ⟨hresponses, hserved⟩ := ih hlayout
    exact ⟨List.forall_mem_cons.mpr ⟨hresult, hresponses⟩, hserved⟩

lemma length_le_total (hl : ∀ n ∈ l, n.Sized) : minBlockSize * l.length ≤ total (l.map Node.segment) := by
  induction l with
  | nil => exact Nat.le_refl 0
  | cons n rest ih =>
    obtain ⟨hn, hrest⟩ := List.forall_mem_cons.mp hl
    have hle := ih hrest
    rw [List.length_cons, Nat.mul_succ, Nat.add_comm, List.map_cons, total]
    exact Nat.add_le_add hn.1 hle

lemma Layout.size_le (ha : a.Layout l) : minBlockSize * a.chain.size ≤ a.top := by
  rw [ha.chain.size, ← ha.top_eq]
  exact length_le_total ha.sized

theorem responses_regular {a : Arena} (ha : a.Fresh) (requests : List Request) :
    (∀ r ∈ a.responses requests, Regular r) ∧
      minBlockSize * (a.served requests).chain.size ≤ (a.served requests).region.len ∧
      (a.served requests).region.len ≤ maxCount := by
  obtain ⟨hresponses, l, hl⟩ := requests_regular ha.layout requests
  have hplaced := hl.placed.stop_le
  exact ⟨hresponses, hl.size_le.trans hl.top_le, by omega⟩

theorem responses_regular_page : page.Fresh ∧
    ∀ r ∈ page.responses [.call (.allocate 100), .call (.allocate 40), .call (.allocate 40), .call (.giveBack 4240),
      .call (.allocate 3000), .call (.giveBack 4096), .call (.giveBack 4096), .call (.resize 4200 5000),
      .call (.giveBack 4200), .call (.usableSize 4201), .inRegion 8191, .call (.owns 0), .call .stats, .audit],
      Regular r :=
  ⟨page_fresh, (responses_regular page_fresh _).1⟩

end Arena

end BitStore
