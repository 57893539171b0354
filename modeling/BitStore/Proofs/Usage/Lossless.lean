import BitStore.Proofs.Usage.Closings
import BitStore.Proofs.Usage.Readings
import Mathlib.Data.List.Infix
import Mathlib.Order.Bounds.Defs

namespace BitStore.Profiler

def deltas : List Call → List Int
  | [] => []
  | .stop _ :: _ => []
  | .record _ delta :: later => delta :: deltas later
  | _ :: later => deltas later

def total : List Int → Int
  | [] => 0
  | delta :: later => delta + total later

structure Exact (p : Profiler) (calls : List Call) : Prop where
  quiet : ∀ c ∈ calls, c.starts = false
  granularity : p.granularity = 0
  tuned : ∀ granularity, .setGranularity granularity ∈ calls → granularity = 0
  fits : ∀ ds, ds <+: deltas calls → FitsSigned (total ds)

def during (p : Profiler) (start : Nat) (calls : List Call) : Profiler := (p.started start).run calls

def change (time : Nat) (usage delta : Int) : List Sample := [⟨time, usage⟩, ⟨time, usage + delta⟩]

/-- What the innermost event of `s` has become in `q`: of those that end after the events completed in `s`, the
first one that is no deeper. -/
def heir? (s q : Profiler) : Option UsageEvent :=
  (q.events.drop s.completed.length).find? (·.depth < s.stack.length)

variable {p q s : Profiler} {c : Call} {calls before later : List Call} {now start : Nat} {delta : Int}

section Changes

lemma total_append (xs ys : List Int) : total (xs ++ ys) = total xs + total ys := by
  induction xs with
  | nil => exact (Int.zero_add _).symm
  | cons d xs ih => rw [List.cons_append, total, ih, total, Int.add_assoc]

lemma deltas_append (h : ∀ c ∈ before, c.stops = false) (later : List Call) :
    deltas (before ++ later) = deltas before ++ deltas later := by
  induction before with
  | nil => rfl
  | cons c before ih =>
    obtain ⟨hc, hbefore⟩ := List.forall_mem_cons.mp h
    cases c with
    | stop now => cases hc
    | record now delta => exact congrArg (delta :: ·) (ih hbefore)
    | _ => exact ih hbefore

lemma deltas_initial (before later : List Call) : deltas before <+: deltas (before ++ later) := by
  induction before with
  | nil => exact List.nil_prefix
  | cons c before ih =>
    cases c with
    | stop now => exact List.prefix_rfl
    | record now delta => exact List.prefix_cons_inj delta |>.mpr ih
    | _ => exact ih

lemma deltas_split {ds more : List Int} (h : deltas calls = ds ++ delta :: more) :
    ∃ before now later, calls = before ++ .record now delta :: later ∧ deltas before = ds ∧
      ∀ c ∈ before, c.stops = false := by
  induction calls generalizing ds with
  | nil => simp [deltas] at h
  | cons c calls ih =>
    have hskip (hc : c.stops = false) (hsame : deltas (c :: calls) = deltas calls)
        (hgone : ∀ before, deltas (c :: before) = deltas before) : ∃ before now later,
          c :: calls = before ++ .record now delta :: later ∧ deltas before = ds ∧ ∀ c ∈ before, c.stops = false := by
      obtain ⟨before, now, later, rfl, hbefore, hstops⟩ := ih (hsame ▸ h)
      exact ⟨c :: before, now, later, rfl, (hgone before).trans hbefore, List.forall_mem_cons.mpr ⟨hc, hstops⟩⟩
    cases c with
    | stop now => simp [deltas] at h
    | record now d =>
      cases ds with
      | nil =>
        obtain ⟨rfl, _⟩ := List.cons.inj h
        exact ⟨[], now, calls, rfl, rfl, nofun⟩
      | cons e ds =>
        obtain ⟨rfl, hrest⟩ := List.cons.inj h
        obtain ⟨before, now', later, rfl, rfl, hstops⟩ := ih hrest
        exact ⟨.record now d :: before, now', later, rfl, rfl, List.forall_mem_cons.mpr ⟨rfl, hstops⟩⟩
    | start now => exact hskip rfl rfl fun _ => rfl
    | openEvent now name => exact hskip rfl rfl fun _ => rfl
    | close now g => exact hskip rfl rfl fun _ => rfl
    | setGranularity granularity => exact hskip rfl rfl fun _ => rfl

end Changes

section Totals

lemma recorded_fits (hs : s.Steady) (htracking : s.tracking = true) (hfits : FitsSigned (s.usage + delta))
    (now : Nat) : ∃ top rest, s.stack = top :: rest ∧ s.after (.record now delta) = { s with
      usage := s.usage + delta,
      lastKept := if s.folds now then s.lastKept else now,
      stack := { top with
        samples := keep (s.folds now) (s.sample now) ⟨now - s.startedAt, s.usage + delta⟩ top.samples } :: rest } := by
  obtain ⟨top, rest, hstack⟩ := List.exists_cons_of_ne_nil (hs.tower htracking).ne_nil
  refine ⟨top, rest, hstack, ?_⟩
  rw [after_record, recorded, if_pos htracking, Checked.addSigned_of_fits hfits, hstack]
  rfl

lemma Turn.usage (h : Turn p c q) (hc : ∀ now delta, c ≠ .record now delta) : q.usage = p.usage := by
  cases h with
  | overflowed => rfl
  | changed => exact absurd rfl (hc _ _)
  | _ => rfl

lemma usage_run (hs : s.Steady) (htracking : s.tracking = true) (hcalls : ∀ c ∈ calls, c.starts = false)
    (hfits : ∀ ds, ds <+: deltas calls → FitsSigned (s.usage + total ds)) :
    (s.run calls).usage = s.usage + total (deltas calls) := by
  induction calls generalizing s with
  | nil => exact (Int.add_zero _).symm
  | cons c calls ih =>
    obtain ⟨hc, hlater⟩ := List.forall_mem_cons.mp hcalls
    have hturn := hs.turn hc
    have hsteady := hs.after c
    have hskip (hstops : c.stops = false) (hrecord : ∀ now delta, c ≠ .record now delta)
        (hsame : deltas (c :: calls) = deltas calls) :
        ((s.after c).run calls).usage = s.usage + total (deltas (c :: calls)) := by
      have husage := hturn.usage hrecord
      rw [hsame] at hfits ⊢
      rw [← husage] at hfits ⊢
      exact ih hsteady (hturn.tracking.mpr ⟨htracking, hstops⟩) hlater hfits
    cases c with
    | start now => cases hc
    | stop now =>
      have hidle : (s.after (.stop now)).tracking = false :=
        Bool.eq_false_iff.mpr fun h => absurd (hturn.tracking.mp h).2 nofun
      obtain ⟨g, hg⟩ := idle_run hsteady hidle hlater
      rw [run_cons, hg]
      exact (hturn.usage nofun).trans (Int.add_zero _).symm
    | record now delta =>
      have hone : FitsSigned (s.usage + delta) := by
        have h := hfits [delta] (by simp [deltas])
        rwa [total, total, Int.add_zero] at h
      obtain ⟨top, rest, _, hafter⟩ := recorded_fits hs htracking hone now
      have husage : (s.after (.record now delta)).usage = s.usage + delta := by rw [hafter]
      rw [run_cons, deltas, total, ← Int.add_assoc, ← husage]
      refine ih hsteady (hturn.tracking.mpr ⟨htracking, rfl⟩) hlater fun ds hds => ?_
      rw [husage, Int.add_assoc]
      exact hfits (delta :: ds) ((List.prefix_cons_inj delta).mpr hds)
    | openEvent now name => exact hskip rfl nofun rfl
    | close now g => exact hskip rfl nofun rfl
    | setGranularity granularity => exact hskip rfl nofun rfl

end Totals

section Heirs

lemma heir?_congr {t : Profiler} (hcompleted : t.completed = s.completed) (hstack : t.stack.length = s.stack.length) :
    heir? t q = heir? s q := by
  rw [heir?, heir?, hcompleted, hstack]

lemma heir?_self {top : UsageEvent} {rest : List UsageEvent} (hs : s.Steady) (hstack : s.stack = top :: rest)
    (hcompleted : q.completed = s.completed) (hsame : q.stack = s.stack) : heir? s q = some top := by
  have htower : Tower (top :: rest) := hstack ▸ hs.tower (hs.tracking_iff.mpr (by simp [hstack]))
  rw [heir?, events, hcompleted, hsame, List.drop_left, hstack, List.find?_cons_of_pos (by simp [htower.depth])]

lemma Retains.heir {name : String} {depth : Nat} {kept : List Sample} (h : Retains s.completed name depth kept q)
    (hq : q.Steady) (hs : s.stack.length = depth + 1) :
    ∃ e, heir? s q = some e ∧ e.name = name ∧ e.depth = depth ∧ kept <+: e.samples := by
  have hfind (inner later : List UsageEvent) {e : UsageEvent} (hevents : q.events = s.completed ++ inner ++ e :: later)
      (hinner : ∀ x ∈ inner, depth < x.depth) (he : e.depth = depth) : heir? s q = some e := by
    rw [heir?, hevents, List.append_assoc, List.drop_left, List.find?_append, List.find?_eq_none.mpr]
    · rw [Option.none_or, List.find?_cons_of_pos (by simp [hs, he])]
    · intro x hx
      have hlow := hinner x hx
      simp only [hs, decide_eq_true_eq]
      omega
  cases h with
  | completed inner e later hdone hinner hname hdepth hkept =>
    refine ⟨e, hfind inner (later ++ q.stack) ?_ hinner hdepth, hname, hdepth, hkept⟩
    rw [events, hdone]
    simp
  | @isOpen inner above below e hdone hopen hinner hname hdepth hkept =>
    obtain ⟨he, habove⟩ := (hopen ▸ hq.tower (hq.tracking_iff.mpr (by simp [hopen]))).split
    rw [hdepth] at he habove
    refine ⟨e, hfind (inner ++ above) below ?_ ?_ he, hname, he,
      hkept.trans (fixed_prefix_samples _ _)⟩
    · rw [events, hdone, hopen]
      simp
    · exact List.forall_mem_append.mpr ⟨hinner, habove⟩

end Heirs

section Sessions

lemma Exact.init (h : Exact p (before ++ later)) : Exact p before where
  quiet c hc := h.quiet c (List.mem_append_left _ hc)
  granularity := h.granularity
  tuned g hg := h.tuned g (List.mem_append_left _ hg)
  fits ds hds := h.fits ds (hds.trans (deltas_initial before later))

lemma Exact.usage (h : Exact p calls) (start : Nat) : (p.during start calls).usage = total (deltas calls) := by
  refine (usage_run (steady_started p start) rfl h.quiet fun ds hds => ?_).trans (Int.zero_add _)
  rw [show (p.started start).usage = 0 from rfl, Int.zero_add]
  exact h.fits ds hds

lemma granularity_after (hc : c.starts = false) (hp : p.granularity = 0)
    (hg : ∀ granularity, c = .setGranularity granularity → granularity = 0) : (p.after c).granularity = 0 := by
  cases c with
  | start now => cases hc
  | stop now =>
    rw [after_stop, stopped]
    split <;> exact hp
  | record now delta =>
    rw [after_record, recorded]
    split
    · cases Checked.addSigned p.usage delta <;> exact hp
    · exact hp
  | openEvent now name =>
    change (p.opened now name).2.granularity = 0
    rw [opened]
    split <;> exact hp
  | close now g =>
    change (p.closed now g).granularity = 0
    rw [closed]
    split
    · split <;> exact hp
    · exact hp
  | setGranularity granularity => exact hg granularity rfl

lemma Exact.granularity_run (h : Exact p calls) (start : Nat) : (p.during start calls).granularity = 0 := by
  induction calls using List.reverseRecOn with
  | nil => exact h.granularity
  | append_singleton calls c ih =>
    rw [during, run_append, run_cons, run_nil]
    exact granularity_after (h.quiet c (by simp)) (ih h.init) fun g hg => h.tuned g (by simp [hg])

lemma Exact.unfolded (h : Exact p (before ++ later)) (start : Nat) : (p.during start before).Unfolded later := by
  rintro mid now delta rest rfl - -
  have hzero : ((p.during start before).run mid).granularity = 0 := by
    rw [during, ← run_append]
    have hmid : Exact p ((before ++ mid) ++ .record now delta :: rest) := by simpa using h
    exact hmid.init.granularity_run start
  rw [folds, hzero]
  exact decide_eq_false (Nat.not_lt_zero _)

lemma startedAt_run (hs : s.Steady) (hcalls : ∀ c ∈ calls, c.starts = false) :
    (s.run calls).startedAt = s.startedAt := by
  induction calls generalizing s with
  | nil => rfl
  | cons c calls ih =>
    obtain ⟨hc, hlater⟩ := List.forall_mem_cons.mp hcalls
    rw [run_cons, ih (hs.after c) hlater, (hs.turn hc).startedAt]

lemma steady_during (p : Profiler) (start : Nat) (calls : List Call) : (p.during start calls).Steady :=
  (steady_started p start).run calls

lemma during_append (p : Profiler) (start : Nat) (before later : List Call) :
    p.during start (before ++ later) = (p.during start before).run later := run_append _ _ _

lemma Exact.stops (h : Exact p calls) (htracking : (p.during start calls).tracking = true) :
    ∀ c ∈ calls, c.stops = false :=
  ((tracking_run (steady_started p start) h.quiet).mp htracking).2

lemma Exact.recorded (h : Exact p (before ++ .record now delta :: later))
    (htracking : (p.during start before).tracking = true) : ∃ top rest, (p.during start before).stack = top :: rest ∧
      (p.during start (before ++ [.record now delta])).completed = (p.during start before).completed ∧
      (p.during start (before ++ [.record now delta])).stack = { top with
        samples := top.samples ++ change (now - start) (total (deltas before)) delta } :: rest := by
  have husage := h.init.usage start
  have hstarted : (p.during start before).startedAt = start := startedAt_run (steady_started p start) h.init.quiet
  have hfolds : (p.during start before).folds now = false := by
    rw [folds, h.init.granularity_run]
    exact decide_eq_false (Nat.not_lt_zero _)
  have hfits : FitsSigned ((p.during start before).usage + delta) := by
    have hsum : total (deltas before ++ [delta]) = (p.during start before).usage + delta := by
      rw [total_append, husage, total, total, Int.add_zero]
    rw [← hsum]
    refine h.fits _ ?_
    rw [deltas_append (h.init.stops htracking), deltas]
    exact ⟨deltas later, by simp⟩
  obtain ⟨top, rest, hstack, hafter⟩ := recorded_fits (steady_during p start before) htracking hfits now
  refine ⟨top, rest, hstack, ?_⟩
  rw [during_append, run_cons, run_nil, hafter, hfolds, sample, hstarted, husage]
  exact ⟨rfl, rfl⟩

lemma Exact.heir (h : Exact p (before ++ .record now delta :: later))
    (htracking : (p.during start before).tracking = true) : ∃ top rest e,
      (p.during start before).stack = top :: rest ∧
      heir? (p.during start before) (p.during start (before ++ .record now delta :: later)) = some e ∧
      e.name = top.name ∧ e.depth = top.depth ∧
      top.samples ++ change (now - start) (total (deltas before)) delta <+: e.samples := by
  obtain ⟨top, rest, hstack, hcompleted, hrecorded⟩ := h.recorded htracking
  have hdepth : top.depth = rest.length := Tower.depth (hstack ▸ (steady_during p start before).tower htracking)
  have hlength : (p.during start (before ++ [.record now delta])).stack.length =
      (p.during start before).stack.length := by rw [hrecorded, hstack]; rfl
  have hlater : Exact p ((before ++ [.record now delta]) ++ later) := by simpa using h
  have hend : (p.during start (before ++ [.record now delta])).run later =
      p.during start (before ++ .record now delta :: later) := by rw [← during_append]; simp
  have hsteady := steady_during p start (before ++ [.record now delta])
  rw [← heir?_congr hcompleted hlength]
  rcases (hlater.unfolded start).run hsteady hrecorded fun c hc => hlater.quiet c (List.mem_append_right _ hc) with
    ⟨hsame, hdone⟩ | hretains
  · rw [hend] at hsame hdone
    exact ⟨top, rest, _, hstack, heir?_self hsteady hrecorded hdone hsame, rfl, rfl, List.prefix_rfl⟩
  · rw [hend] at hretains
    obtain ⟨e, he, hname, hedepth, hkept⟩ :=
      hretains.heir (steady_during p start _) (by rw [hrecorded]; rfl)
    exact ⟨top, rest, e, hstack, he, hname, hedepth.trans hdepth.symm, hkept⟩

end Sessions

section Peaks

lemma Exact.peak_le (h : Exact p calls) (start : Nat) :
    ∃ ds, ds <+: deltas calls ∧ total ds = (p.during start calls).peak := by
  have hread := read_run (steady_started p start) (fun e he x hx => by
    obtain rfl := List.mem_singleton.mp he
    rw [List.mem_singleton.mp hx, sample, Nat.sub_self]
    rfl) h.quiet
  rcases UsageEvent.peakOf_cases (p.during start calls).completed with hzero | ⟨e, he, x, hx, hpeak⟩
  · exact ⟨[], List.nil_prefix, hzero.symm⟩
  · obtain ⟨before, ⟨later, rfl⟩, husage⟩ := (hread e (List.mem_append_right _ he) x hx).total
    exact ⟨deltas before, deltas_initial before later, (h.init.usage start).symm.trans (husage.symm.trans hpeak)⟩

lemma Exact.le_peak (h : Exact p calls) (hover : (p.during start calls).tracking = false) {ds : List Int}
    (hds : ds <+: deltas calls) : total ds ≤ (p.during start calls).peak := by
  rcases ds.eq_nil_or_concat' with rfl | ⟨ds, delta, rfl⟩
  · exact le_max_right _ _
  · obtain ⟨more, hmore⟩ := hds
    rw [List.append_assoc] at hmore
    obtain ⟨before, now, later, rfl, rfl, hstops⟩ := deltas_split hmore.symm
    have htracking : (p.during start before).tracking = true :=
      (tracking_run (steady_started p start) h.init.quiet).mpr ⟨rfl, hstops⟩
    obtain ⟨top, rest, e, _, he, _, _, hkept⟩ := h.heir htracking
    have hmem := List.mem_of_mem_drop (List.mem_of_find?_eq_some he)
    rw [events, (steady_during p start _).idle hover, List.append_nil] at hmem
    rw [total_append, total, total, Int.add_zero]
    exact UsageEvent.usage_le_peakOf hmem (hkept.subset (List.mem_append_right _
      (List.mem_cons_of_mem _ (List.mem_singleton_self _))))

end Peaks

/-- At granularity zero nothing is lost: each change recorded in a session leaves its two samples, one behind the
other, in the event that was innermost, where they stay behind those of earlier changes, and once the session
is over the peak is the greatest total that any first part of its changes adds up to. -/
theorem changes_kept (h : Exact p calls) (start : Nat) :
    (∀ before now delta later, calls = before ++ .record now delta :: later →
      (p.during start before).tracking = true → ∃ top rest e, (p.during start before).stack = top :: rest ∧
        heir? (p.during start before) (p.during start calls) = some e ∧ e.name = top.name ∧ e.depth = top.depth ∧
        top.samples ++ change (now - start) (total (deltas before)) delta <+: e.samples) ∧
    (∀ first now delta second now' delta' later,
      calls = first ++ .record now delta :: second ++ .record now' delta' :: later →
      (p.during start (first ++ .record now delta :: second)).tracking = true →
      heir? (p.during start first) (p.during start (first ++ .record now delta :: second)) =
        (p.during start (first ++ .record now delta :: second)).stack.head? →
      ∃ e older between newer,
        heir? (p.during start (first ++ .record now delta :: second)) (p.during start calls) = some e ∧
        e.samples = older ++ change (now - start) (total (deltas first)) delta ++ between ++
          change (now' - start) (total (deltas (first ++ .record now delta :: second))) delta' ++ newer) ∧
    ((∃ c ∈ calls, c.stops = true) →
      IsGreatest {x | ∃ ds, ds <+: deltas calls ∧ total ds = x} (p.during start calls).peak) := by
  refine ⟨?_, ?_, fun hstops => ⟨h.peak_le start, ?_⟩⟩
  · rintro before now delta later rfl htracking
    exact h.heir htracking
  · rintro first now delta second now' delta' later rfl htracking hsame
    have hfirst : (p.during start first).tracking = true := by
      rw [during_append, tracking_run (steady_during p start first) fun c hc => h.init.quiet c (by simp [hc])]
        at htracking
      exact htracking.1
    obtain ⟨older, _, x, _, hx, _, _, between, hkept⟩ := h.init.heir hfirst
    obtain ⟨top, rest, e, hstack, he, _, _, newer, hlater⟩ := h.heir htracking
    rw [hsame, hstack] at hx
    obtain rfl := Option.some.inj hx
    exact ⟨e, older.samples, between, newer, he, by rw [← hlater, ← hkept]⟩
  · rintro _ ⟨ds, hds, rfl⟩
    exact h.le_peak (idle_of_stops (steady_started p start) h.quiet hstops) hds

def exactly : List Call :=
  [.record 1 100, .openEvent 2 "inner", .record 2 50, .close 3 ⟨some 1⟩, .record 3 (-30), .stop 4]

lemma exactly_exact : (idle 0 0).Exact exactly where
  quiet := by decide
  granularity := rfl
  tuned := by simp [exactly]
  fits ds hds := by
    have hall : ∀ ds ∈ (deltas exactly).inits, FitsSigned (total ds) := by decide
    exact hall ds ((List.mem_inits _ _).mpr hds)

theorem changes_kept_exactly :
    (∃ e older between newer, heir? ((idle 0 0).during 0 [.record 1 100, .openEvent 2 "inner", .record 2 50,
        .close 3 ⟨some 1⟩]) ((idle 0 0).during 0 exactly) = some e ∧
      e.samples = older ++ [⟨1, 0⟩, ⟨1, 100⟩] ++ between ++ [⟨3, 150⟩, ⟨3, 120⟩] ++ newer) ∧
    IsGreatest {x | ∃ ds, ds <+: [100, 50, -30] ∧ total ds = x} 150 := by
  obtain ⟨_, horder, hpeak⟩ := changes_kept exactly_exact 0
  exact ⟨horder [] 1 100 [.openEvent 2 "inner", .record 2 50, .close 3 ⟨some 1⟩] 3 (-30) [.stop 4] rfl (by decide)
    (by decide), hpeak (by decide)⟩

end BitStore.Profiler
