import BitStore.Proofs.Store.Owners
import BitStore.Proofs.Store.Vectors

/-! A store with the vectors and the raw blocks that live in it. -/

namespace BitStore

open BitStore.Action

structure RawBlock where
  address : Nat
  size : Nat
  deriving DecidableEq, Repr

/-- The issuer of an address is the backend that handed it out last. -/
structure Workspace where
  store : Store
  vectors : Nat → BitVector
  raws : Nat → Option RawBlock
  issuer : Nat → Backend

inductive Deed where
  | resize (now i len : Nat)
  | clear (now i : Nat)
  | setBit (i k : Nat) (bit : Bool)
  | setWord (i k : Nat) (x : UInt64)
  | allocate (j n : Nat)
  | resizeRaw (j n : Nat)
  | giveBack (j : Nat)
  | write (j first : Nat) (f : Nat → UInt8) (n : Nat)
  | enablePool (m : Machine) (source : PageSource) (size : Nat)
  | profile (p : Profiler)

namespace Deed

def owner? : Deed → Option Owner
  | resize _ i _ | clear _ i | setBit i .. | setWord i .. => some (.vector i)
  | allocate j _ | resizeRaw j _ | giveBack j | write j .. => some (.raw j)
  | enablePool .. | profile _ => none

def region? (s : Store) : Deed → Option Region
  | enablePool m source size =>
    if s.poolEnabled then none else ((Arena.reserve m source size).run s).result.toOption.map (·.region)
  | _ => none

end Deed

namespace Workspace

def on (platform : Platform) (now : Nat) : Workspace :=
  ⟨.on platform now, fun _ => .empty, fun _ => none, fun _ => .heap⟩

def claim (w : Workspace) : Owner → Option (Nat × Nat)
  | .vector i => (w.vectors i).data.map fun p => (p, (w.vectors i).reserved)
  | .raw j => (w.raws j).map fun r => (r.address, r.size)

def pointer (w : Workspace) (o : Owner) : Nat := o.pointer w.claim

def reissued (w : Workspace) (o : Owner) (q : Option Nat) : Nat → Backend :=
  q.elim w.issuer fun q => Function.update w.issuer q (w.store.source w.issuer (w.pointer o))

def withHeld (w : Workspace) (i : Nat) (h : Held) : Workspace :=
  ⟨h.store, Function.update w.vectors i h.vector, w.raws, w.reissued (.vector i) h.vector.data⟩

def withRaw (w : Workspace) (j : Nat) (r : Option RawBlock) (s : Store) : Workspace :=
  ⟨s, w.vectors, Function.update w.raws j r, w.reissued (.raw j) (r.map (·.address))⟩

def withStore (w : Workspace) (s : Store) : Workspace := { w with store := s }

def settled {α : Type} (w : Workspace) (j : Nat) (block : α → Option RawBlock) (x : Outcome Store α) : Workspace :=
  match x.result with
  | .ok a => w.withRaw j (block a) x.state
  | .error _ => w.withStore x.state

def step (w : Workspace) : Deed → Workspace
  | .resize now i len => w.withHeld i ((Held.resize now len).run ⟨w.vectors i, w.store⟩).state
  | .clear now i => w.withHeld i ((Held.clear now).run ⟨w.vectors i, w.store⟩).state
  | .setBit i k bit => w.withStore ((w.store.setBit (w.vectors i) k bit).toOption.getD w.store)
  | .setWord i k x => w.withStore ((w.store.setWord (w.vectors i) k x).toOption.getD w.store)
  | .allocate j n => w.settled j (fun q => some ⟨q, n⟩) ((Store.allocate n).run w.store)
  | .resizeRaw j n =>
    w.settled j (fun q => some ⟨q, n⟩) ((Store.resizeBlock (w.pointer (.raw j)) n).run w.store)
  | .giveBack j => w.settled j (fun _ => none) ((Store.giveBack (w.pointer (.raw j))).run w.store)
  | .write j first f n => w.withStore (w.store.setBytes (w.pointer (.raw j)) first f n)
  | .enablePool m source size => w.withStore ((Store.enablePool m source size).run w.store).state
  | .profile p => w.withStore { w.store with profiler := p }

/-- What holders keep to: a raw block gets a place of its own, and writes stay inside the bytes asked for. -/
def Fair (w : Workspace) : Deed → Prop
  | .allocate j _ => w.raws j = none
  | .write j first _ n => ∃ r, w.raws j = some r ∧ first + n ≤ r.size
  | _ => True

structure Permits (w : Workspace) (d : Deed) : Prop where
  fair : w.Fair d
  region : ∀ r ∈ d.region? w.store, w.store.Vacant r

inductive Reached : Workspace → Prop
  | start (platform : Platform) (now : Nat) : Reached (on platform now)
  | step {w : Workspace} (d : Deed) : Reached w → w.store.Trusted → w.Permits d → Reached (w.step d)

structure Secure (w : Workspace) : Prop where
  sound : w.store.Sound
  backs : w.store.Backs w.claim w.issuer
  bare : ∀ i, (w.vectors i).data = none → (w.vectors i).len = 0
  fits : ∀ i, (w.vectors i).len + 64 ≤ maxCount

structure Advances (w w' : Workspace) (p : Nat) (added : Option Region) : Prop where
  secure : w'.Secure
  spares : w.store.Spares w'.store p
  grows : w.store.Grows w'.store added

variable {w : Workspace} {t : Store} {b : Backend} {o : Owner} {i j p q : Nat}

section Claims

@[simp] lemma withHeld_vectors (w : Workspace) (i : Nat) (h : Held) :
    (w.withHeld i h).vectors = Function.update w.vectors i h.vector := rfl

@[simp] lemma withRaw_raws (w : Workspace) (j : Nat) (r : Option RawBlock) (s : Store) :
    (w.withRaw j r s).raws = Function.update w.raws j r := rfl

lemma claim_withHeld (w : Workspace) (i : Nat) (h : Held) : (w.withHeld i h).claim =
    Function.update w.claim (.vector i) (h.vector.data.map fun p => (p, h.vector.reserved)) := by
  funext o
  cases o with
  | raw j => rfl
  | vector i' =>
    by_cases hi : i' = i
    · subst hi
      rw [Function.update_self, claim, withHeld_vectors, Function.update_self]
    · rw [Function.update_of_ne (fun h => hi (Owner.vector.inj h)), claim, withHeld_vectors, Function.update_of_ne hi]
      rfl

lemma claim_withRaw (w : Workspace) (j : Nat) (r : Option RawBlock) (s : Store) : (w.withRaw j r s).claim =
    Function.update w.claim (.raw j) (r.map fun r => (r.address, r.size)) := by
  funext o
  cases o with
  | vector i => rfl
  | raw j' =>
    by_cases hj : j' = j
    · subst hj
      rw [Function.update_self, claim, withRaw_raws, Function.update_self]
    · rw [Function.update_of_ne (fun h => hj (Owner.raw.inj h)), claim, withRaw_raws, Function.update_of_ne hj]
      rfl

lemma claim_vector (hv : (w.vectors i).data = some p) : w.claim (.vector i) = some (p, (w.vectors i).reserved) := by
  rw [claim, hv]
  rfl

lemma claim_empty (hv : (w.vectors i).data = none) : w.claim (.vector i) = none := by
  rw [claim, hv, Option.map_none]

lemma pointer_vector (w : Workspace) (i : Nat) : w.pointer (.vector i) = (w.vectors i).data.getD 0 := by
  rw [pointer, Owner.pointer, claim]
  cases (w.vectors i).data <;> rfl

lemma Secure.reissued_same (hw : w.Secure) (hq : (w.claim o).map Prod.fst = some q) :
    w.reissued o (some q) = w.issuer := by
  obtain ⟨⟨p, n⟩, ho, rfl⟩ := Option.map_eq_some_iff.mp hq
  change Function.update w.issuer p (w.store.source w.issuer (o.pointer w.claim)) = w.issuer
  rw [hw.backs.source_eq hw.sound ho, Function.update_eq_self]

lemma Secure.reissued_vector (hw : w.Secure) (i : Nat) :
    w.reissued (.vector i) (w.vectors i).data = w.issuer := by
  cases hdata : (w.vectors i).data with
  | none => rfl
  | some p => exact hw.reissued_same (by rw [claim_vector hdata, Option.map_some])

lemma Secure.withHeld_same (hw : w.Secure) (i : Nat) (t : Store) :
    w.withHeld i ⟨w.vectors i, t⟩ = w.withStore t := by
  rw [withHeld, hw.reissued_vector, Function.update_eq_self]
  rfl

end Claims

section Preserved

lemma Secure.of_live (hw : w.Secure) (ht : t.Sound) (hlive : ∀ c, (t.ledger c).live = (w.store.ledger c).live) :
    (w.withStore t).Secure :=
  ⟨ht, hw.backs.of_live hlive, hw.bare, hw.fits⟩

lemma Secure.keeps {added : Option Region} (hw : w.Secure) (ht : w.store.Keeps t) (hgrows : w.store.Grows t added)
    (p : Nat) : w.Advances (w.withStore t) p added :=
  ⟨hw.of_live ht.sound ht.live, ht.spares p, hgrows⟩

lemma Secure.stays (hw : w.Secure) (p : Nat) : w.Advances (w.withStore w.store) p none :=
  hw.keeps hw.sound.keeps_self w.store.grows_self p

lemma Secure.refused (hw : w.Secure) (ht : w.store.Refused t) (p : Nat) : w.Advances (w.withStore t) p none :=
  hw.keeps (ht.keeps hw.sound) ht.grows p

lemma Secure.writes (hw : w.Secure) (ht : w.store.Writes t b p) : w.Advances (w.withStore t) p none :=
  ⟨hw.of_live ht.sound ht.live, ht.spares, ht.grows⟩

lemma Secure.withHeld (hw : w.Secure) {h : Held} (hsound : h.store.Sound)
    (hbacks : h.store.Backs
      (Function.update w.claim (.vector i) (h.vector.data.map fun p => (p, h.vector.reserved)))
      (w.reissued (.vector i) h.vector.data))
    (hbare : h.vector.data = none → h.vector.len = 0) (hfits : h.vector.len + 64 ≤ maxCount) :
    (w.withHeld i h).Secure := by
  have heach {P : BitVector → Prop} (hold : ∀ i', P (w.vectors i')) (hnew : P h.vector) (i' : Nat) :
      P ((w.withHeld i h).vectors i') := by
    by_cases hi : i' = i
    · subst hi
      rwa [withHeld_vectors, Function.update_self]
    · rw [withHeld_vectors, Function.update_of_ne hi]
      exact hold i'
  refine ⟨hsound, ?_, heach (P := fun v => v.data = none → v.len = 0) hw.bare hbare,
    heach (P := fun v => v.len + 64 ≤ maxCount) hw.fits hfits⟩
  rw [claim_withHeld]
  exact hbacks

lemma Advances.withProfiler {v : BitVector} {added : Option Region} (h : w.Advances (w.withHeld i ⟨v, t⟩) p added)
    (profiler : Profiler) : w.Advances (w.withHeld i ⟨v, { t with profiler := profiler }⟩) p added where
  secure := ⟨h.secure.sound.withProfiler profiler, h.secure.backs.of_live fun _ => rfl, h.secure.bare, h.secure.fits⟩
  spares := h.spares.withProfiler profiler
  grows := h.grows.withProfiler profiler

lemma Secure.withRaw (hw : w.Secure) {r : Option RawBlock} (hsound : t.Sound)
    (hbacks : t.Backs (Function.update w.claim (.raw j) (r.map fun r => (r.address, r.size)))
      (w.reissued (.raw j) (r.map (·.address)))) : (w.withRaw j r t).Secure := by
  refine ⟨hsound, ?_, hw.bare, hw.fits⟩
  rw [claim_withRaw]
  exact hbacks

lemma Secure.names (hw : w.Secure) (o : Owner) : ∃ k, (∀ p n, w.claim o = some (p, n) → n ≤ k) ∧
    w.store.Names (w.store.source w.issuer (w.pointer o)) (w.pointer o) k :=
  hw.backs.names hw.sound o

end Preserved

end Workspace

end BitStore
