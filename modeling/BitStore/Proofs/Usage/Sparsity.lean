import BitStore.Proofs.Usage.Chronology
import BitStore.Proofs.Usage.Lossless

/-! Only a change that is not folded adds samples to an open event, and the time of the last change kept moves on
by the granularity then. -/

namespace BitStore.Profiler

open UsageEvent

def samples (p : Profiler) : List Sample := p.events.flatMap (·.samples)

/-- A session at granularity `g`. An event has paid for its first sample and, once it is closed, for two more; the
time up to the last change kept has paid two for each granule. -/
structure Sparse (g clock : Nat) (p : Profiler) : Prop where
  timed : Timed clock p
  tracking : p.tracking = true
  granularity : p.granularity = g
  started : p.startedAt ≤ p.lastKept
  past : p.lastKept ≤ clock
  paid : p.samples.length ≤ p.events.length + 2 * p.completed.length + 2 * ((p.lastKept - p.startedAt) / g)

variable {p q : Profiler} {c : Call} {calls later : List Call} {g clock start stop : Nat}

section Counts

lemma samples_eq (p : Profiler) :
    p.samples = p.completed.flatMap (·.samples) ++ p.stack.flatMap (·.samples) := List.flatMap_append

lemma length_keep {xs : List Sample} (h : xs ≠ []) (fold : Bool) (before after : Sample) :
    (keep fold before after xs).length = xs.length + if fold then 0 else 2 := by
  have hpos := List.length_pos_iff.mpr h
  cases fold with
  | false => simp [keep]
  | true => simp [keep, h, Nat.sub_add_cancel hpos]

lemma length_addSample (e : UsageEvent) (s : Sample) : (e.addSample s).samples.length = e.samples.length + 1 :=
  List.length_append

lemma length_ended (s : Sample) (es : List UsageEvent) :
    ((es.map (·.addSample s)).flatMap (·.samples)).length = (es.flatMap (·.samples)).length + es.length := by
  induction es with
  | nil => rfl
  | cons e es ih =>
    simp only [List.map_cons, List.flatMap_cons, List.length_append, List.length_cons, ih, length_addSample]
    omega

lemma Turn.length_events (h : Turn p c q) (htracking : p.tracking = true) :
    q.events.length = p.events.length + c.name?.toList.length := by
  have hlabels (r : Profiler) : r.labels.length = r.events.length := List.length_map _
  rcases h.labels with ⟨_, name, hname, hq⟩ | ⟨hq, hname⟩
  · rw [← hlabels, hq, hname]
    simp [events]
    omega
  · rw [← hlabels, hq, hlabels, hname htracking]
    rfl

lemma granule_passed {kept now : Nat} (hg : 0 < g) (hstart : start ≤ kept) (h : ¬now - kept < g) :
    (kept - start) / g + 1 ≤ (now - start) / g := by
  rw [← Nat.add_div_right _ hg]
  apply Nat.div_le_div_right
  omega

end Counts

section Runs

lemma Sparse.granules (hp : Sparse g clock p) (hg : 0 < g) (now : Nat) (hle : clock ≤ now) :
    p.startedAt ≤ (if p.folds now then p.lastKept else now) ∧ (if p.folds now then p.lastKept else now) ≤ now ∧
      2 * ((p.lastKept - p.startedAt) / g) + (if p.folds now then 0 else 2) ≤
        2 * (((if p.folds now then p.lastKept else now) - p.startedAt) / g) := by
  have hpast := hp.past.trans hle
  cases hfold : p.folds now with
  | true => exact ⟨hp.started, hpast, Nat.le_refl _⟩
  | false =>
    refine ⟨hp.started.trans hpast, Nat.le_refl now, ?_⟩
    have hfar : ¬now - p.lastKept < g := hp.granularity ▸ of_decide_eq_false hfold
    exact Nat.mul_le_mul_left 2 (granule_passed hg hp.started hfar)

lemma Sparse.turn (hp : Sparse g clock p) (hg : 0 < g) (h : Turn p c q) (hle : clock ≤ c.time?.getD clock)
    (hstops : c.stops = false) (htuned : ∀ n, c = .setGranularity n → n = g) :
    Sparse g (c.time?.getD clock) q := by
  have htimed := hp.timed.turn h hle
  have htracking := h.tracking.mpr ⟨hp.tracking, hstops⟩
  have hpaid := hp.paid
  cases h with
  | idle _ hidle => exact absurd (hp.tracking.symm.trans hidle) nofun
  | tuned n => exact ⟨htimed, htracking, htuned n rfl, hp.started, hp.past, hpaid⟩
  | overflowed => exact ⟨htimed, htracking, hp.granularity, hp.started, hp.past.trans hle, hpaid⟩
  | missed => exact ⟨htimed, htracking, hp.granularity, hp.started, hp.past.trans hle, hpaid⟩
  | stopped => cases hstops
  | opened =>
    refine ⟨htimed, htracking, hp.granularity, hp.started, hp.past.trans hle, ?_⟩
    simp only [samples_eq, events, List.flatMap_cons, List.length_append, List.length_cons, List.length_nil] at hpaid ⊢
    omega
  | @closed now guard e parent rest _ _ hstack =>
    refine ⟨htimed, htracking, hp.granularity, hp.started, hp.past.trans hle, ?_⟩
    simp only [samples_eq, events, hstack, length_addSample, List.flatMap_append, List.flatMap_cons, List.flatMap_nil,
      List.length_append, List.length_cons, List.length_nil] at hpaid ⊢
    omega
  | @changed now delta top rest _ _ hstack =>
    have hsampled : top.samples ≠ [] := (hp.timed.timely top (by simp [events, hstack])).sampled
    obtain ⟨hstarted, hpast, hgranules⟩ := hp.granules hg now hle
    refine ⟨htimed, htracking, hp.granularity, hstarted, hpast, ?_⟩
    simp only [samples_eq, events, hstack, List.flatMap_cons, List.length_append, List.length_cons,
      length_keep hsampled] at hpaid ⊢
    omega

lemma sparse_started (hp : p.granularity = g) (start : Nat) : Sparse g start (p.started start) where
  timed := timed_started p start
  tracking := rfl
  granularity := hp
  started := Nat.le_refl start
  past := Nat.le_refl start
  paid := by simp [samples, events, started]

lemma Sparse.run (hp : Sparse g clock p) (hg : 0 < g) (hcalls : ∀ c ∈ calls, c.starts = false ∧ c.stops = false)
    (htuned : ∀ n, .setGranularity n ∈ calls → n = g) (hclock : Chronological clock (calls ++ [.stop stop])) :
    ∃ last ≤ stop, Sparse g last (p.run calls) ∧
      (p.run calls).events.length = p.events.length + calls.countP fun c => c.name?.isSome := by
  induction calls generalizing p clock with
  | nil => exact ⟨clock, hclock.cons.1, hp, rfl⟩
  | cons c calls ih =>
    obtain ⟨⟨hstarts, hstops⟩, hlater⟩ := List.forall_mem_cons.mp hcalls
    obtain ⟨hle, hchronological⟩ := hclock.cons
    have hturn := hp.timed.steady.turn hstarts
    have hnext := hp.turn hg hturn hle hstops fun n hn => htuned n (hn ▸ List.mem_cons_self)
    obtain ⟨last, hlast, hsparse, hevents⟩ :=
      ih hnext hlater (fun n hn => htuned n (List.mem_cons_of_mem _ hn)) hchronological
    refine ⟨last, hlast, hsparse, ?_⟩
    rw [run_cons, hevents, hturn.length_events hp.tracking, List.countP_cons]
    cases c.name? with
    | none => rfl
    | some name => exact Nat.add_right_comm ..

lemma Sparse.stopped (hp : Sparse g clock p) (hle : clock ≤ stop) :
    ((p.stopped stop).completed.flatMap (·.samples)).length + 1 ≤
      3 * p.events.length + 2 * ((stop - p.startedAt) / g) := by
  have hpaid := hp.paid
  have hstack := List.length_pos_iff.mpr (hp.timed.steady.tower hp.tracking).ne_nil
  have hgranules : (p.lastKept - p.startedAt) / g ≤ (stop - p.startedAt) / g :=
    Nat.div_le_div_right (Nat.sub_le_sub_right (hp.past.trans hle) _)
  rw [Profiler.stopped, if_pos hp.tracking]
  simp only [samples_eq, events, List.flatMap_append, List.length_append, length_ended] at hpaid ⊢
  omega

theorem samples_bounded (p : Profiler) (hg : 0 < g) (hp : p.granularity = g)
    (hcalls : ∀ c ∈ calls, c.starts = false ∧ c.stops = false) (htuned : ∀ n, .setGranularity n ∈ calls → n = g)
    (hlater : ∀ c ∈ later, c.starts = false) (hclock : Chronological start (calls ++ [.stop stop])) :
    (((p.started start).run (calls ++ .stop stop :: later)).completed.flatMap (·.samples)).length ≤
      2 + 3 * (calls.countP fun c => c.name?.isSome) + 2 * ((stop - start) / g) := by
  obtain ⟨last, hlast, hsparse, hevents⟩ := (sparse_started hp start).run hg hcalls htuned hclock
  have hstarted : ((p.started start).run calls).startedAt = start :=
    startedAt_run (steady_started p start) fun c hc => (hcalls c hc).1
  have hbound := hsparse.stopped hlast
  rw [hevents, hstarted, show (p.started start).events.length = 1 from rfl] at hbound
  have hidle : (((p.started start).run calls).after (.stop stop)).tracking = false := by
    rw [after_stop, Profiler.stopped, if_pos hsparse.tracking]
  obtain ⟨_, hover⟩ := idle_run (hsparse.timed.steady.after (.stop stop)) hidle hlater
  rw [run_append, run_cons, hover, after_stop]
  change ((((p.started start).run calls).stopped stop).completed.flatMap (·.samples)).length ≤ _
  omega

def dense : List Call := [.openEvent 0 "inner", .record 10 1, .record 15 1, .close 20 ⟨some 1⟩, .record 20 1]

theorem samples_bounded_dense :
    (((idle 10 0).started 0).run (dense ++ [.stop 20, .record 40 1])).completed.map (·.samples.length) = [4, 5] ∧
      ((((idle 10 0).started 0).run (dense ++ [.stop 20, .record 40 1])).completed.flatMap (·.samples)).length ≤
        2 + 3 * 1 + 2 * ((20 - 0) / 10) := by
  have hclock : Chronological 0 (dense ++ [.stop 20]) := by
    rw [Chronological]
    decide
  have hlater : ∀ c ∈ [Call.record 40 1], c.starts = false := by decide
  exact ⟨by decide, samples_bounded (idle 10 0) (by decide) rfl (by decide) (by simp [dense]) hlater hclock⟩

end Runs

end BitStore.Profiler
