import BitStore.Proofs.Store.Routing
import BitStore.Proofs.Store.Spacious

namespace BitStore

open BitStore.Action

structure Tenant where
  store : Store
  issuer : Nat → Option Backend

namespace Tenant

inductive Call where
  | allocate (n : Nat)
  | resize (p n : Nat)
  | giveBack (p : Nat)
  | enablePool (m : Machine) (source : PageSource) (size : Nat)

def on (platform : Platform) (now : Nat) : Tenant := ⟨.on platform now, fun _ => none⟩

def source (t : Tenant) (p : Nat) : Backend := (t.issuer p).getD t.store.serving

def swapped (issuer : Nat → Option Backend) (b : Backend) (gone : Nat) (made : Option Nat) (p : Nat) :
    Option Backend :=
  if made = some p then some b else if p = gone then none else issuer p

def settled {α : Type} (t : Tenant) (x : Outcome Store α) (issuer : α → Nat → Option Backend) : Tenant :=
  ⟨x.state, x.result.toOption.elim t.issuer issuer⟩

def call (t : Tenant) : Call → Tenant
  | .allocate n =>
    t.settled ((Store.allocate n).run t.store) fun q => swapped t.issuer t.store.serving 0 (some q)
  | .resize p n =>
    t.settled ((Store.resizeBlock p n).run t.store) fun q => swapped t.issuer (t.source p) p (some q)
  | .giveBack p => t.settled ((Store.giveBack p).run t.store) fun _ => swapped t.issuer (t.source p) p none
  | .enablePool m source size => t.settled ((Store.enablePool m source size).run t.store) fun _ => t.issuer

/-- What a tenant may pass to the store: null, a live pointer, or any address of the pool. A region is reserved
where no block of the heap is. -/
def Permits (t : Tenant) : Call → Prop
  | .allocate _ => True
  | .resize p _ | .giveBack p => p = 0 ∨ t.issuer p ≠ none ∨ ∃ a ∈ t.store.pool, a.region.Covers p
  | .enablePool m source size => t.store.pool = none → ∀ a,
    ((Arena.reserve m source size).run t.store).result = .ok a →
      a.region.Placed ∧ ∀ p, t.issuer p = some .heap → ¬a.region.Covers p

inductive Leads (t : Tenant) : Tenant → Prop
  | refl : Leads t t
  | call {u : Tenant} (k : Call) : Leads t u → u.store.Outlying → u.Permits k → Leads t (u.call k)

def Reached (t : Tenant) : Prop := ∃ platform now, (on platform now).Leads t

structure Agrees (t : Tenant) : Prop where
  parted : t.store.Parted
  issued : ∀ b p, t.issuer p = some b ↔ t.store.Issues b p

variable {t u : Tenant} {s : Store} {a : Arena} {b : Backend} {k : Call} {p q n gone : Nat} {made : Option Nat}

section Steps

lemma agrees_on (platform : Platform) (now : Nat) : (on platform now).Agrees where
  parted := by
    refine ⟨nofun, fun p hp => ?_⟩
    obtain ⟨m, hm⟩ := hp
    cases Std.HashMap.getElem?_empty.symm.trans hm
  issued b p := by
    refine ⟨nofun, ?_⟩
    rintro ⟨m, hm⟩
    cases b with
    | heap => cases Std.HashMap.getElem?_empty.symm.trans hm
    | pool => exact hm.elim

lemma Agrees.retained (ht : t.Agrees) (h : t.store.Retains s) : Agrees ⟨s, t.issuer⟩ :=
  ⟨h.parted, fun b p => (ht.issued b p).trans (h.issues b p).symm⟩

lemma Agrees.swapped (ht : t.Agrees) (h : t.store.Swaps s b gone made) (hgone : gone = 0 ∨ t.issuer gone = some b) :
    Agrees ⟨s, swapped t.issuer b gone made⟩ := by
  refine ⟨h.parted, fun c p => ?_⟩
  change Tenant.swapped t.issuer b gone made p = some c ↔ s.Issues c p
  rw [Tenant.swapped]
  by_cases hmade : made = some p
  · have hp : s.Issues b p := (h.issues p).mpr (.inr hmade)
    rw [if_pos hmade, Option.some.injEq]
    refine ⟨fun hbc => hbc ▸ hp, fun hc => h.parted.unique hp hc⟩
  · rw [if_neg hmade]
    by_cases hc : c = b
    · subst hc
      rw [h.issues, ← ht.issued, or_iff_left hmade]
      by_cases hp : p = gone <;> simp [hp]
    · rw [h.others c hc, ← ht.issued]
      by_cases hp : p = gone
      · subst hp
        -- Only `b` can have had an allocation at `p`.
        rw [if_pos rfl]
        refine ⟨nofun, fun hissued => ?_⟩
        rcases hgone with rfl | hgone
        · exact absurd rfl (ht.parted.pos ((ht.issued c 0).mp hissued))
        · exact absurd (Option.some.inj (hissued.symm.trans hgone)) hc
      · rw [if_neg hp]

lemma Agrees.names (ht : t.Agrees) (hp : p = 0 ∨ t.issuer p ≠ none) : ∃ j, t.store.Names (t.source p) p j ∧
    (p = 0 ∨ t.issuer p = some (t.source p)) := by
  cases hissuer : t.issuer p with
  | some b =>
    obtain ⟨j, hj⟩ := (ht.issued b p).mp hissuer
    have hsource : t.source p = b := by rw [source, hissuer, Option.getD_some]
    rw [hsource]
    exact ⟨j, .inl hj, .inr rfl⟩
  | none =>
    obtain rfl := hp.resolve_right fun h => h hissuer
    exact ⟨0, .inr ⟨rfl, rfl, by rw [source, hissuer, Option.getD_none]⟩, .inl rfl⟩

structure Advances (t u : Tenant) : Prop where
  agrees : u.Agrees
  region : t.store.Stays u.store

lemma Agrees.stays (ht : t.Agrees) : t.Advances ⟨t.store, t.issuer⟩ := ⟨ht, Store.stays_of_eq rfl⟩

lemma Agrees.settles {α : Type} (ht : t.Agrees) {x : Action Store α} {made : α → Option Nat}
    (hx : x.Settles t.store (fun _ s => t.store.Retains s) fun q s => t.store.Swaps s b gone (made q))
    (hgone : gone = 0 ∨ t.issuer gone = some b) :
    t.Advances (t.settled (x.run t.store) fun q => Tenant.swapped t.issuer b gone (made q)) := by
  rcases hx with ⟨e, s, ⟨hresult, rfl⟩, hs⟩ | ⟨q, s, ⟨hresult, rfl⟩, hs⟩
  · rw [settled, hresult]
    exact ⟨ht.retained hs, hs.region⟩
  · rw [settled, hresult]
    exact ⟨ht.swapped hs hgone, hs.region⟩

lemma Agrees.failed {α : Type} (ht : t.Agrees) {x : Action Store α} {e : Stop} {issuer : α → Nat → Option Backend}
    (hx : x.Yields t.store (.error e) t.store) : t.Advances (t.settled (x.run t.store) issuer) := by
  rw [settled, hx.1, hx.2]
  exact ht.stays

lemma Agrees.enablePool (ht : t.Agrees) {m : Machine} {source : PageSource} {size : Nat}
    (hk : t.Permits (.enablePool m source size)) : t.Advances (t.call (.enablePool m source size)) := by
  rcases Store.enablePool_cases m source size t.store with ⟨e, hfails⟩ | ⟨hpool, a, ha, hresult, hstate⟩
  · exact ht.failed hfails
  · obtain ⟨hplaced, hout⟩ := hk hpool a ha
    have hfresh : a.Fresh := ⟨hplaced, Store, t.store, m, source, size, ha⟩
    have hretains := ht.parted.enabled hpool hfresh fun p hp => hout p ((ht.issued .heap p).mpr hp)
    rw [call, settled, hresult, hstate]
    exact ⟨ht.retained hretains, hretains.region⟩

lemma Agrees.rejects (ht : t.Agrees) (ha : t.store.pool = some a) (hp : a.region.Covers p)
    (hnot : t.issuer p ≠ some .pool) : t.store.Rejects p :=
  ht.parted.rejects ha hp fun h => hnot ((ht.issued .pool p).mpr h)

theorem Agrees.call (ht : t.Agrees) (hout : t.store.Outlying) (hk : t.Permits k) : t.Advances (t.call k) := by
  cases k with
  | allocate n => exact ht.settles (ht.parted.allocate hout n) (.inl rfl)
  | enablePool m source size => exact ht.enablePool hk
  | resize p n =>
    by_cases hp : p = 0 ∨ t.issuer p ≠ none
    · obtain ⟨j, hnames, hgone⟩ := ht.names hp
      exact ht.settles (ht.parted.resizeBlock hout hnames n) hgone
    · obtain ⟨hnull, hdead⟩ := not_or.mp hp
      obtain ⟨a, ha, hcovers⟩ := (hk.resolve_left hnull).resolve_left hdead
      exact ht.failed ((ht.rejects ha hcovers (by simp [not_not.mp hdead])).2 n)
  | giveBack p =>
    by_cases hp : p = 0 ∨ t.issuer p ≠ none
    · obtain ⟨j, hnames, hgone⟩ := ht.names hp
      exact ht.settles (.inr (ht.parted.giveBack hnames)) hgone
    · obtain ⟨hnull, hdead⟩ := not_or.mp hp
      obtain ⟨a, ha, hcovers⟩ := (hk.resolve_left hnull).resolve_left hdead
      exact ht.failed (ht.rejects ha hcovers (by simp [not_not.mp hdead])).1

end Steps

section Runs

lemma Agrees.leads (ht : t.Agrees) (hu : t.Leads u) : t.Advances u := by
  induction hu with
  | refl => exact ht.stays
  | call k _ hout hk ih =>
    obtain ⟨hagrees, hregion⟩ := ih.agrees.call hout hk
    refine ⟨hagrees, fun a ha => ?_⟩
    obtain ⟨a', ha', heq⟩ := ih.region a ha
    obtain ⟨a'', ha'', heq'⟩ := hregion a' ha'
    exact ⟨a'', ha'', heq'.trans heq⟩

lemma Reached.agrees (ht : t.Reached) : t.Agrees := by
  obtain ⟨platform, now, hleads⟩ := ht
  exact ((agrees_on platform now).leads hleads).agrees

def enablePage : Call := .enablePool .plain ⟨.heap, .unknown⟩ 4096

end Runs

end Tenant

end BitStore
