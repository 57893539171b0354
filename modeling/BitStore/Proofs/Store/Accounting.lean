import BitStore.Proofs.Store.Isolation
import BitStore.Proofs.Usage.Overflow
import Mathlib.Algebra.BigOperators.Finprod

/-! The total of the profiler moves with the sum of the bytes of all vectors. -/

namespace BitStore

open BitStore.Action

def BitVector.bytes (v : BitVector) : Nat := (wordBytes? v.len).getD 0

lemma BitVector.bytes_of_len {v : BitVector} (hv : v.len = 0) : v.bytes = 0 := by
  rw [bytes, hv]
  rfl

lemma BitVector.bytes_eq {v : BitVector} {n : Nat} (hv : wordBytes? v.len = some n) : v.bytes = n := by
  rw [bytes, hv, Option.getD_some]

section Sums

variable {f : Nat → Nat}

lemma support_update (f : Nat → Nat) (i n : Nat) : (Function.update f i n).support ⊆ insert i f.support := by
  intro j hj
  by_cases hji : j = i
  · exact .inl hji
  · rw [Function.mem_support, Function.update_of_ne hji] at hj
    exact .inr hj

lemma finsum_update (hf : f.support.Finite) (i n : Nat) :
    (∑ᶠ j, Function.update f i n j) + f i = (∑ᶠ j, f j) + n := by
  have hbefore : f.support ⊆ (insert i hf.toFinset : Finset Nat) := by simp [Set.subset_insert]
  have hafter : (Function.update f i n).support ⊆ (insert i hf.toFinset : Finset Nat) := by
    simpa using support_update f i n
  have hi : i ∈ insert i hf.toFinset := Finset.mem_insert_self _ _
  rw [finsum_eq_sum_of_support_subset _ hbefore, finsum_eq_sum_of_support_subset _ hafter,
    Finset.sum_update_of_mem hi, Finset.sum_eq_add_sum_sdiff_singleton_of_mem hi]
  omega

end Sums

namespace Profiler

variable {p : Profiler} {c : Call} {old new : Nat}

def Call.quiet : Call → Bool
  | .openEvent .. | .close .. | .setGranularity .. => true
  | .start .. | .stop .. | .record .. => false

lemma after_quiet (hc : c.quiet = true) (p : Profiler) :
    (p.after c).usage = p.usage ∧ (p.after c).tracking = p.tracking := by
  have htally : (p.after c).tally = p.tally := by
    cases c with
    | openEvent | close | setGranularity => exact tally_after rfl
    | start | stop | record => cases hc
  exact ⟨congrArg Tally.total htally, congrArg Tally.tracking htally⟩

def Misses (p : Profiler) (old new : Nat) : Prop := old ≠ new ∧ p.Overflows (new - old)

lemma told_misses (h : p.Misses old new) (now : Nat) :
    (told now old new).Yields p (.error (.fault .addOverflow)) p := by
  rw [told, if_pos h.1]
  exact record_overflows h.2 now

lemma told_hears (h : ¬p.Misses old new) (now : Nat) :
    ∃ q, (told now old new).Yields p (.ok ()) q ∧ q.tally = p.tally.heed (.record now (new - old)) := by
  rw [told]
  split
  · next hne => exact record_tally (fun hover => h ⟨hne, hover⟩) now
  · next hsame =>
    obtain rfl := not_not.mp hsame
    refine ⟨p, yields_pure (), ?_⟩
    rw [Int.sub_self, Tally.heed, Int.add_zero, ite_self]

lemma told_same (p : Profiler) (now n : Nat) : (told now n n).Yields p (.ok ()) p := by
  rw [told, if_neg (not_not.mpr rfl)]
  exact yields_pure ()

lemma told_usage (hp : p.tracking = true) (hfits : FitsSigned (p.usage + (new - old))) (now : Nat) :
    ((told now old new).run p).state.usage = p.usage + (new - old) ∧
      ((told now old new).run p).state.tracking = true := by
  obtain ⟨q, ⟨_, hq⟩, htally⟩ := told_hears (fun hmisses => hmisses.2.2 hfits) now
  rw [Tally.heed, tally, tally, if_pos hp, hp] at htally
  obtain ⟨htracking, husage⟩ := Tally.mk.inj htally
  rw [hq]
  exact ⟨husage, htracking⟩

end Profiler

namespace Store

lemma route_still (p : Nat) : (route p).Still := by
  refine still_get.bind fun s => ?_
  cases s.pool with
  | none => exact still_pure _
  | some a =>
    refine (still_lift _).bind fun owned => ?_
    cases owned with
    | true => exact still_pure _
    | false =>
      refine (still_lift _).bind fun inside => ?_
      cases inside with
      | true => exact (still_say _).bind fun _ => still_fail _
      | false => exact still_pure _

lemma onPool_profiler {α : Type} (a : Arena) (x : Action Arena α) : (onPool a x).Leaves (·.profiler) :=
  fun _ => rfl

lemma onHeap_profiler {α : Type} (x : Action Heap α) : (onHeap x).Leaves (·.profiler) :=
  fun _ => rfl

lemma allocate_profiler (n : Nat) : (allocate n).Leaves (·.profiler) := by
  refine (still_get.leaves _).bind fun s => ?_
  cases s.pool with
  | none => exact onHeap_profiler _
  | some a => exact onPool_profiler a _

lemma giveBack_profiler (p : Nat) : (giveBack p).Leaves (·.profiler) := by
  refine ((route_still p).leaves _).bind fun a => ?_
  cases a with
  | none => exact onHeap_profiler _
  | some a => exact onPool_profiler a _

lemma drop_profiler (data : Option Nat) : (data.elim (pure ()) giveBack).Leaves (·.profiler) := by
  cases data with
  | none => exact (still_pure ()).leaves _
  | some p => exact giveBack_profiler p

lemma resizeBlock_profiler (p n : Nat) : (resizeBlock p n).Leaves (·.profiler) := by
  refine ((route_still p).leaves _).bind fun a => ?_
  cases a with
  | none => exact onHeap_profiler _
  | some a => exact onPool_profiler a _

lemma enablePool_profiler (m : Machine) (source : PageSource) (size : Nat) :
    (enablePool m source size).Leaves (·.profiler) := by
  intro s
  rcases enablePool_cases m source size s with ⟨_, _, h⟩ | ⟨_, a, _, _, h⟩ <;> rw [h]

lemma setWord_profiler {s t : Store} {v : BitVector} {i : Nat} {x : UInt64} (h : s.setWord v i x = .ok t) :
    t.profiler = s.profiler := by
  rw [setWord] at h
  split at h
  · split at h
    · obtain rfl := Except.ok.inj h
      exact onMemory_profiler _ _ _
    · cases h
  · cases h

lemma setBit_profiler {s t : Store} {v : BitVector} {i : Nat} {bit : Bool} (h : s.setBit v i bit = .ok t) :
    t.profiler = s.profiler := by
  rw [setBit] at h
  split at h
  · cases hword : s.vectorWord v (i / 64) with
    | error e =>
      rw [hword] at h
      cases h
    | ok y =>
      rw [hword] at h
      exact setWord_profiler h
  · cases h

end Store

namespace Held

variable {v : BitVector} {s t : Store} {h : Held} {r : Except Stop Unit} {now len : Nat}

def Reported (now : Nat) (v : BitVector) (s : Store) (h : Held) : Prop :=
  h.store.profiler = ((Profiler.told now v.bytes h.vector.bytes).run s.profiler).state

lemma reported_same (now : Nat) (v : BitVector) (ht : t.profiler = s.profiler) : Reported now v s ⟨v, t⟩ :=
  ht.trans (Profiler.told_same _ _ _).2.symm

lemma Resized.reported (h' : Resized now v s len r h) : Reported now v s h := by
  cases h' with
  | tooLong => exact reported_same now v rfl
  | inPlace _ _ _ hwords =>
    have hbytes : v.bytes = BitVector.bytes { v with len := len } := by rw [BitVector.bytes, hwords]; rfl
    rw [Reported, ← hbytes, (Profiler.told_same _ _ _).2]
  | refused _ hblock => exact reported_same now v ((Store.resizeBlock_profiler _ _).eq hblock)
  | moved hold hbytes _ hblock htold =>
    rw [Reported, BitVector.bytes_eq hold, BitVector.bytes_eq hbytes, ← (Store.resizeBlock_profiler _ _).eq hblock]
    exact htold.2.symm

lemma Cleared.reported (h' : Cleared now v s r h) : Reported now v s h := by
  cases h' with
  | refused _ hblock => exact reported_same now v ((Store.giveBack_profiler _).eq hblock)
  | @done old r t profiler hold hgone htold =>
    have hsame : t.profiler = s.profiler := (Store.drop_profiler v.data).eq hgone
    rw [Reported, BitVector.bytes_eq hold, BitVector.bytes_of_len rfl, ← hsame]
    exact htold.2.symm

lemma Resized.fits (h' : Resized now v s len r h) (hv : v.len + 64 ≤ maxCount) : h.vector.len + 64 ≤ maxCount := by
  cases h' with
  | tooLong => exact hv
  | inPlace _ hlen => exact (paddedBytes?_eq_some_iff.mp hlen).1
  | refused => exact hv
  | moved _ _ hlen => exact (paddedBytes?_eq_some_iff.mp hlen).1

lemma Cleared.fits (h' : Cleared now v s r h) (hv : v.len + 64 ≤ maxCount) : h.vector.len + 64 ≤ maxCount := by
  cases h' with
  | refused => exact hv
  | done => exact BitVector.empty_fits

end Held

namespace Workspace

variable {w w' : Workspace} {d : Deed} {deeds clears : List Deed} {v : BitVector} {i : Nat}

noncomputable def total (w : Workspace) : Nat := ∑ᶠ i, (w.vectors i).bytes

structure Tallied (w : Workspace) : Prop where
  fits : ∀ i, (w.vectors i).len + 64 ≤ maxCount
  finite : (Function.support fun i => (w.vectors i).bytes).Finite

def Reports (w w' : Workspace) : Prop :=
  ∃ now i v, v.len + 64 ≤ maxCount ∧ w'.vectors = Function.update w.vectors i v ∧
    Held.Reported now (w.vectors i) w.store ⟨v, w'.store⟩

/-- Nobody but the vectors tells the profiler of a change, and nobody begins or ends a session. -/
def Undisturbed (w : Workspace) : List Deed → Prop
  | [] => True
  | d :: rest => (∀ p, d = .profile p → ∃ c : Profiler.Call, c.quiet = true ∧ p = w.store.profiler.after c) ∧
    (w.step d).Undisturbed rest

section Totals

lemma Tallied.of_update (hw : w.Tallied) (hv : v.len + 64 ≤ maxCount)
    (hvectors : w'.vectors = Function.update w.vectors i v) :
    w'.Tallied ∧ w'.total + (w.vectors i).bytes = w.total + v.bytes := by
  have hbytes : (fun j => (w'.vectors j).bytes) = Function.update (fun j => (w.vectors j).bytes) i v.bytes := by
    funext j
    rw [hvectors, Function.apply_update (fun _ => BitVector.bytes)]
  refine ⟨⟨fun j => ?_, ?_⟩, ?_⟩
  · rw [hvectors]
    by_cases hji : j = i
    · rwa [hji, Function.update_self]
    · rw [Function.update_of_ne hji]
      exact hw.fits j
  · rw [hbytes]
    exact (hw.finite.insert i).subset (support_update _ _ _)
  · rw [total, total, hbytes]
    exact finsum_update hw.finite i v.bytes

lemma Tallied.words (hw : w.Tallied) (i : Nat) : wordBytes? (w.vectors i).len = some (w.vectors i).bytes := by
  obtain ⟨n, hn⟩ := Held.wordBytes_of_padded (BitVector.padded (hw.fits i))
  rw [hn, BitVector.bytes_eq hn]

lemma total_eq_zero (hw : ∀ i, (w.vectors i).len = 0) : w.total = 0 := by
  rw [total, finsum_congr fun i => BitVector.bytes_of_len (hw i), finsum_zero]

lemma on_tallied (platform : Platform) (now : Nat) : (on platform now).Tallied where
  fits _ := BitVector.empty_fits
  finite := by
    have hnone : (Function.support fun i => ((on platform now).vectors i).bytes) = ∅ :=
      Function.support_eq_empty_iff.mpr (funext fun _ => BitVector.bytes_of_len rfl)
    rw [hnone]
    exact Set.finite_empty

end Totals

section Steps

lemma settled_profiler {α : Type} {x : Action Store α} (hx : x.Leaves (·.profiler)) (w : Workspace) (j : Nat)
    (block : α → Option RawBlock) : (w.settled j block (x.run w.store)).store.profiler = w.store.profiler := by
  rw [settled]
  split <;> exact hx w.store

lemma written_profiler {x : Except Fault Store} {s : Store} (hx : ∀ t, x = .ok t → t.profiler = s.profiler) :
    (x.toOption.getD s).profiler = s.profiler := by
  cases x with
  | error e => rfl
  | ok t => exact hx t rfl

lemma Tallied.silent (hw : w.Tallied) (hvectors : w'.vectors = w.vectors)
    (hprofiler : w'.store.profiler = w.store.profiler) : w.Reports w' :=
  ⟨0, 0, w.vectors 0, hw.fits 0, by rw [hvectors, Function.update_eq_self], Held.reported_same _ _ hprofiler⟩

theorem Tallied.reports (hw : w.Tallied) (hd : ∀ p, d ≠ .profile p) : w.Reports (w.step d) := by
  have hpadded (i : Nat) := BitVector.padded (hw.fits i)
  cases d with
  | resize now i len =>
    obtain ⟨r, h, ⟨_, rfl⟩, hresized⟩ := Held.resize_resized (hpadded i) now len w.store
    exact ⟨now, i, _, hresized.fits (hw.fits i), rfl, hresized.reported⟩
  | clear now i =>
    obtain ⟨r, h, ⟨_, rfl⟩, hcleared⟩ := Held.clear_cleared (hpadded i) now w.store
    exact ⟨now, i, _, hcleared.fits (hw.fits i), rfl, hcleared.reported⟩
  | setBit i k bit => exact hw.silent rfl (written_profiler fun t => Store.setBit_profiler)
  | setWord i k x => exact hw.silent rfl (written_profiler fun t => Store.setWord_profiler)
  | allocate j n => exact hw.silent (settled_vectors ..) (settled_profiler (Store.allocate_profiler n) w j _)
  | resizeRaw j n => exact hw.silent (settled_vectors ..) (settled_profiler (Store.resizeBlock_profiler _ n) w j _)
  | giveBack j => exact hw.silent (settled_vectors ..) (settled_profiler (Store.giveBack_profiler _) w j _)
  | write j first f n => exact hw.silent rfl (Store.onMemory_profiler _ _ _)
  | enablePool m source size => exact hw.silent rfl (Store.enablePool_profiler m source size w.store)
  | profile p => exact absurd rfl (hd p)

lemma Tallied.step (hw : w.Tallied) (d : Deed) : (w.step d).Tallied := by
  by_cases hd : ∃ p, d = .profile p
  · obtain ⟨p, rfl⟩ := hd
    exact ⟨hw.fits, hw.finite⟩
  · obtain ⟨_, _, _, hv, hvectors, _⟩ := hw.reports (not_exists.mp hd)
    exact (hw.of_update hv hvectors).1

lemma Tallied.after (hw : w.Tallied) (deeds : List Deed) : (w.after deeds).Tallied := by
  induction deeds generalizing w with
  | nil => exact hw
  | cons d rest ih => exact ih (hw.step d)

theorem Tallied.accounts (hw : w.Tallied) (htracking : w.store.profiler.tracking = true)
    (hd : ∀ p, d = .profile p → ∃ c : Profiler.Call, c.quiet = true ∧ p = w.store.profiler.after c)
    (hfits : FitsSigned (w.store.profiler.usage + ((w.step d).total - w.total))) :
    (w.step d).store.profiler.usage = w.store.profiler.usage + ((w.step d).total - w.total) ∧
      (w.step d).store.profiler.tracking = true := by
  by_cases hprofile : ∃ p, d = .profile p
  · obtain ⟨p, rfl⟩ := hprofile
    obtain ⟨c, hc, rfl⟩ := hd p rfl
    obtain ⟨husage, hstill⟩ := Profiler.after_quiet hc w.store.profiler
    refine ⟨husage.trans ?_, hstill.trans htracking⟩
    change _ = _ + ((w.total : Int) - w.total)
    rw [Int.sub_self, Int.add_zero]
  · obtain ⟨now, i, v, hv, hvectors, hreported⟩ := hw.reports (not_exists.mp hprofile)
    have htotal := (hw.of_update hv hvectors).2
    have hchange : ((w.step d).total : Int) - w.total = (v.bytes : Int) - (w.vectors i).bytes := by omega
    rw [hchange] at hfits ⊢
    rw [show (w.step d).store.profiler = _ from hreported]
    exact Profiler.told_usage htracking hfits now

theorem Tallied.accounts_after (hw : w.Tallied) (htracking : w.store.profiler.tracking = true)
    (hdeeds : w.Undisturbed deeds)
    (hfits : ∀ xs, xs <+: deeds → FitsSigned (w.store.profiler.usage + ((w.after xs).total - w.total))) :
    (w.after deeds).store.profiler.usage = w.store.profiler.usage + ((w.after deeds).total - w.total) ∧
      (w.after deeds).store.profiler.tracking = true := by
  induction deeds generalizing w with
  | nil => exact ⟨by rw [Workspace.after, Int.sub_self, Int.add_zero], htracking⟩
  | cons d rest ih =>
    obtain ⟨hd, hrest⟩ := hdeeds
    obtain ⟨husage, hstill⟩ := hw.accounts htracking hd (hfits [d] ⟨rest, rfl⟩)
    have hjoin (u : Workspace) : (w.step d).store.profiler.usage + (u.total - (w.step d).total) =
        w.store.profiler.usage + (u.total - w.total) := by
      rw [husage]
      omega
    obtain ⟨hrun, hlasts⟩ := ih (hw.step d) hstill hrest fun xs hxs =>
      hjoin ((w.step d).after xs) ▸ hfits (d :: xs) (List.cons_prefix_cons.mpr ⟨rfl, hxs⟩)
    exact ⟨hrun.trans (hjoin _), hlasts⟩

end Steps

section Clearing

lemma Tallied.total_released (hw : w.Tallied) (hsecure : w.Secure) (hd : d.releases = true) :
    (w.step d).total ≤ w.total := by
  cases d with
  | clear now i =>
    obtain ⟨_, _, _, heq⟩ := hsecure.cleared now i
    have htotal := (hw.of_update BitVector.empty_fits (congrArg Workspace.vectors heq)).2
    rw [BitVector.bytes_of_len (v := .empty) rfl] at htotal
    omega
  | giveBack j => rw [total, total, show (w.step (.giveBack j)).vectors = w.vectors from settled_vectors ..]
  | _ => cases hd

lemma Tallied.total_falls (hw : w.Tallied) (hsecure : w.Secure) (hdeeds : ∀ d ∈ deeds, d.releases = true) :
    (w.after deeds).total ≤ w.total := by
  induction deeds generalizing w with
  | nil => exact le_rfl
  | cons d rest ih =>
    obtain ⟨hd, hrest⟩ := List.forall_mem_cons.mp hdeeds
    exact (ih (hw.step d) (hsecure.released hd).1 hrest).trans (hw.total_released hsecure hd)

lemma undisturbed_of_releases (hdeeds : ∀ d ∈ deeds, d.releases = true) : w.Undisturbed deeds := by
  induction deeds generalizing w with
  | nil => trivial
  | cons d rest ih =>
    obtain ⟨hd, hrest⟩ := List.forall_mem_cons.mp hdeeds
    refine ⟨?_, ih hrest⟩
    rintro p rfl
    cases hd

theorem Tallied.usage_cleared (hw : w.Tallied) (hsecure : w.Secure) (htracking : w.store.profiler.tracking = true)
    (husage : w.store.profiler.usage = w.total) (hfits : FitsSigned w.total) (hclears : w.Clears clears) :
    (w.after clears).store.profiler.usage = 0 := by
  have hfalls (xs : List Deed) (hxs : xs <+: clears) :
      FitsSigned (w.store.profiler.usage + ((w.after xs).total - w.total)) := by
    have hle := hw.total_falls hsecure fun d hd => hclears.only d (hxs.subset hd)
    rw [husage]
    exact ⟨by omega, by have := hfits.2; omega⟩
  obtain ⟨hrun, _⟩ := hw.accounts_after htracking (undisturbed_of_releases hclears.only) hfalls
  have hbare := (hsecure.claims_released hclears.only).1.bare
  rw [hrun, husage, total_eq_zero fun i => hbare i (hsecure.all_cleared hclears i)]
  omega

end Clearing

/-- Usage is accounted for exactly: between two points of a session the total of the profiler changes as the
bytes of all vectors do. If all were empty when it started, the two are the same, and nothing is left once
they are empty again or have all been cleared. -/
theorem usage_accounted {platform : Platform} {now : Nat} {before : List Deed}
    (hw : w = (on platform now).after before) (htracking : w.store.profiler.tracking = true)
    (hdeeds : w.Undisturbed deeds)
    (hfits : ∀ xs, xs <+: deeds → FitsSigned (w.store.profiler.usage + ((w.after xs).total - w.total))) :
    (∀ i, wordBytes? ((w.after deeds).vectors i).len = some ((w.after deeds).vectors i).bytes) ∧
    (Function.support fun i => ((w.after deeds).vectors i).bytes).Finite ∧
    (w.after deeds).store.profiler.usage - w.store.profiler.usage = (w.after deeds).total - w.total ∧
    ∀ (p : Profiler) (start : Nat), w.store.profiler = p.started start → (∀ i, (w.vectors i).len = 0) →
      (w.after deeds).store.profiler.usage = (w.after deeds).total ∧
      ((∀ i, ((w.after deeds).vectors i).len = 0) → (w.after deeds).store.profiler.usage = 0) ∧
      ∀ clears, (w.after deeds).Reached → (w.after deeds).Clears clears →
        ((w.after deeds).after clears).store.profiler.usage = 0 := by
  have htallied : w.Tallied := hw ▸ (on_tallied platform now).after before
  obtain ⟨husage, hstill⟩ := htallied.accounts_after htracking hdeeds hfits
  refine ⟨(htallied.after deeds).words, (htallied.after deeds).finite, by omega, fun p start hstart hvectors => ?_⟩
  have hnone : w.store.profiler.usage = 0 := by rw [hstart]; rfl
  have hsame : (w.after deeds).store.profiler.usage = (w.after deeds).total := by
    rw [husage, hnone, total_eq_zero hvectors]
    omega
  refine ⟨hsame, fun hcleared => ?_, fun clears hreached hclears => ?_⟩
  · rw [hsame, total_eq_zero hcleared]
    rfl
  · have hrange := hfits deeds List.prefix_rfl
    rw [← husage, hsame] at hrange
    exact (htallied.after deeds).usage_cleared hreached.secure hstill hsame hrange hclears

def session : Workspace := (on .spacious 0).after [.profile ((Store.new 0).profiler.started 0)]

def busy : List Deed := [.resize 1 0 100, enablePage, .resize 2 1 64, .resize 3 1 40000]

lemma busy_reached : (session.after busy).Reached := by
  have hplans : (on .spacious 0).Plans (.profile ((Store.new 0).profiler.started 0) :: busy) :=
    ⟨trivial, nofun, trivial, nofun, trivial, enablePage_low _, trivial, nofun, trivial, nofun, trivial⟩
  exact (reached_spacious hplans).1

lemma busy_vectors {xs : List Deed} (hxs : xs <+: busy) (i : Nat) : (session.after xs).vectors (i + 2) = .empty :=
  after_vectors fun d hd => by
    have hd := hxs.subset hd
    simp only [busy, List.mem_cons, List.not_mem_nil, or_false] at hd
    rcases hd with rfl | rfl | rfl | rfl <;> simp [Deed.owner?, enablePage]

lemma busy_total {xs : List Deed} (hxs : xs <+: busy) :
    (session.after xs).total = ((session.after xs).vectors 0).bytes + ((session.after xs).vectors 1).bytes := by
  have hsupport : (Function.support fun i => ((session.after xs).vectors i).bytes) ⊆ (Finset.range 2 : Finset Nat) := by
    intro i hi
    match i with
    | 0 => decide
    | 1 => decide
    | i + 2 => exact absurd (congrArg BitVector.bytes (busy_vectors hxs i)) hi
  rw [total, finsum_eq_sum_of_support_subset _ hsupport, Finset.sum_range_succ, Finset.sum_range_one]

lemma busy_clears : (session.after busy).Clears [.clear 4 1, .clear 5 0] := by
  refine ⟨by simp [Deed.releases], fun i hi => ?_⟩
  match i with
  | 0 => exact ⟨5, by simp⟩
  | 1 => exact ⟨4, by simp⟩
  | i + 2 => exact absurd (congrArg BitVector.data (busy_vectors List.prefix_rfl i)) hi

theorem usage_accounted_busy : (session.after busy).store.profiler.usage = (session.after busy).total ∧
    (session.after busy).store.profiler.usage = 24 ∧
    ((session.after busy).after [.clear 4 1, .clear 5 0]).store.profiler.usage = 0 := by
  have hquiet : session.Undisturbed busy := ⟨nofun, nofun, nofun, nofun, trivial⟩
  have htakes : ∀ k < 5, FitsSigned (session.store.profiler.usage +
      ((((session.after (busy.take k)).vectors 0).bytes + ((session.after (busy.take k)).vectors 1).bytes : Nat) -
        (((session.after []).vectors 0).bytes + ((session.after []).vectors 1).bytes : Nat))) := by decide +kernel
  have hfits (xs : List Deed) (hxs : xs <+: busy) :
      FitsSigned (session.store.profiler.usage + ((session.after xs).total - session.total)) := by
    rw [busy_total hxs, ← show session.after [] = session from rfl, busy_total List.nil_prefix,
      List.prefix_iff_eq_take.mp hxs]
    exact htakes xs.length (Nat.lt_succ_of_le hxs.length_le)
  obtain ⟨_, _, _, hstarted⟩ := usage_accounted (w := session) rfl rfl hquiet hfits
  obtain ⟨hsame, _, hcleared⟩ := hstarted _ 0 rfl fun _ => rfl
  exact ⟨hsame, by decide +kernel, hcleared _ busy_reached busy_clears⟩

end Workspace

end BitStore
