import BitStore.Proofs.Outcome
import BitStore.Proofs.Usage.Calls
import Mathlib.Data.List.Infix

namespace BitStore.Profiler

def Overflows (p : Profiler) (delta : Int) : Prop := p.tracking = true ∧ ¬FitsSigned (p.usage + delta)

def ending (p : Profiler) : Call → Except Stop Unit
  | .start now => ((start now).run p).result
  | .stop now => ((stop now).run p).result
  | .record now delta => ((record now delta).run p).result
  | .openEvent now name => ((openEvent now name).run p).result.map fun _ => ()
  | .close now g => ((close now g).run p).result
  | .setGranularity granularity => ((setGranularity granularity).run p).result

def endings (p : Profiler) : List Call → List (Except Stop Unit)
  | [] => []
  | c :: rest => p.ending c :: (p.after c).endings rest

structure Tally where
  tracking : Bool
  total : Int

namespace Tally

def blank : Tally := ⟨false, 0⟩

def heed (t : Tally) : Call → Tally
  | .start _ => ⟨true, 0⟩
  | .stop _ => { t with tracking := false }
  | .record _ delta => if t.tracking then { t with total := t.total + delta } else t
  | .openEvent .. | .close .. | .setGranularity _ => t

def follow (t : Tally) (calls : List Call) : Tally := calls.foldl heed t

end Tally

def tally (p : Profiler) : Tally := ⟨p.tracking, p.usage⟩

variable {p : Profiler} {c : Call} {calls : List Call} {e : Stop} {delta : Int}

section Changes

lemma recorded_overflows (h : p.Overflows delta) (now : Nat) : p.recorded now delta = .error .addOverflow := by
  have hsum : Checked.addSigned p.usage delta = .error .addOverflow := if_neg h.2
  rw [recorded, if_pos h.1, hsum]
  rfl

lemma recorded_tally (h : ¬p.Overflows delta) (now : Nat) :
    ∃ q, p.recorded now delta = .ok q ∧ q.tally = p.tally.heed (.record now delta) := by
  rw [recorded, Tally.heed, tally]
  by_cases htracking : p.tracking = true
  · have hfits : FitsSigned (p.usage + delta) := not_not.mp fun hn => h ⟨htracking, hn⟩
    rw [if_pos htracking, if_pos htracking, Checked.addSigned_of_fits hfits]
    exact ⟨_, rfl, rfl⟩
  · rw [if_neg htracking, if_neg htracking]
    exact ⟨p, rfl, rfl⟩

lemma record_overflows (h : p.Overflows delta) (now : Nat) :
    (record now delta).Yields p (.error (.fault .addOverflow)) p := by
  rw [record, Action.Yields, Action.run, Action.update, recorded_overflows h]
  exact ⟨rfl, rfl⟩

lemma record_tally (h : ¬p.Overflows delta) (now : Nat) :
    ∃ q, (record now delta).Yields p (.ok ()) q ∧ q.tally = p.tally.heed (.record now delta) := by
  obtain ⟨q, hq, htally⟩ := recorded_tally h now
  exact ⟨q, Action.yields_update (by rw [hq]; rfl), htally⟩

end Changes

section Endings

lemma ending_stop (p : Profiler) (now : Nat) : p.ending (.stop now) = .ok () := by
  rw [ending, stop, Action.run]
  cases htracking : p.tracking <;>
    simp [bind, Action.bind, Action.get, Action.set, Action.say, pure, Action.pure, htracking]

lemma ending_eq_error_iff : p.ending c = .error e ↔
    e = .fault .addOverflow ∧ ∃ now delta, c = .record now delta ∧ p.Overflows delta := by
  cases c with
  | record now delta =>
    by_cases h : p.Overflows delta
    · rw [ending, (record_overflows h now).1]
      simp [h, eq_comm]
    · obtain ⟨q, hq, _⟩ := record_tally h now
      rw [ending, hq.1]
      simp [h]
  | stop now => simp [ending_stop]
  | start | openEvent | close | setGranularity => exact ⟨nofun, nofun⟩

lemma after_of_error (h : p.ending c = .error e) : p.after c = p := by
  obtain ⟨_, now, delta, rfl, hover⟩ := ending_eq_error_iff.mp h
  exact (record_overflows hover now).2

lemma tally_after (h : p.ending c = .ok ()) : (p.after c).tally = p.tally.heed c := by
  cases c with
  | start | setGranularity => rfl
  | stop now =>
    rw [after_stop, stopped]
    cases htracking : p.tracking with
    | true => rfl
    | false => rw [if_neg Bool.false_ne_true, Tally.heed, tally, htracking]
  | record now delta =>
    by_cases hover : p.Overflows delta
    · rw [ending, (record_overflows hover now).1] at h
      cases h
    · obtain ⟨q, hq, htally⟩ := record_tally hover now
      rw [after, hq.2, htally]
  | openEvent now name =>
    change (p.opened now name).2.tally = p.tally
    rw [opened]
    split <;> rfl
  | close now g =>
    change (p.closed now g).tally = p.tally
    rw [closed]
    split
    · split <;> rfl
    · rfl

lemma ending_ok_iff (hp : FitsSigned p.usage) : p.ending c = .ok () ↔ FitsSigned (p.tally.heed c).total := by
  cases hending : p.ending c with
  | ok =>
    refine iff_of_true rfl ?_
    cases c with
    | start =>
      change FitsSigned 0
      decide
    | record now delta =>
      rw [Tally.heed, tally]
      split
      · next htracking =>
        by_contra hfits
        cases hending.symm.trans (ending_eq_error_iff.mpr ⟨rfl, now, delta, rfl, htracking, hfits⟩)
      · exact hp
    | _ => exact hp
  | error e =>
    obtain ⟨_, now, delta, rfl, htracking, hfits⟩ := ending_eq_error_iff.mp hending
    refine iff_of_false nofun ?_
    rwa [Tally.heed, tally, if_pos htracking]

lemma endings_ok_iff (hp : FitsSigned p.usage) :
    (∀ r ∈ p.endings calls, r = .ok ()) ↔ ∀ xs, xs <+: calls → FitsSigned (p.tally.follow xs).total := by
  induction calls generalizing p with
  | nil =>
    refine iff_of_true nofun fun xs hxs => ?_
    rwa [List.prefix_nil.mp hxs]
  | cons c calls ih =>
    rw [endings, List.forall_mem_cons]
    constructor
    · rintro ⟨hc, hrest⟩ xs hxs
      -- After a call that has come to its end, the profiler keeps the tally of the calls so far.
      have hfits := (ending_ok_iff hp).mp hc
      rw [← tally_after hc] at hfits
      rcases List.prefix_cons_iff.mp hxs with rfl | ⟨ys, rfl, hys⟩
      · exact hp
      · rw [Tally.follow, List.foldl_cons, ← tally_after hc]
        exact (ih hfits).mp hrest ys hys
    · intro hall
      have hfits := hall [c] (List.prefix_append [c] calls)
      have hc := (ending_ok_iff hp).mpr hfits
      change FitsSigned (p.tally.heed c).total at hfits
      rw [← tally_after hc] at hfits
      refine ⟨hc, (ih hfits).mpr fun ys hys => ?_⟩
      rw [tally_after hc]
      exact hall (c :: ys) (List.cons_prefix_cons.mpr ⟨rfl, hys⟩)

lemma tally_run (h : ∀ r ∈ p.endings calls, r = .ok ()) : (p.run calls).tally = p.tally.follow calls := by
  induction calls generalizing p with
  | nil => rfl
  | cons c calls ih =>
    obtain ⟨hc, hrest⟩ := List.forall_mem_cons.mp h
    rw [run_cons, ih hrest, tally_after hc]
    rfl

end Endings

end BitStore.Profiler
