import BitStore.Proofs.Usage.Retention
import Mathlib.Data.List.Induction
import Mathlib.Order.MinMax

/-! Samples are readings of the clock and of the total, however they are folded. -/

namespace BitStore

namespace UsageEvent

variable {e : UsageEvent} {es : List UsageEvent} {x : Sample}

lemma le_max?_getD {l : List Int} {a : Int} (ha : a ∈ l) : a ≤ l.max?.getD 0 := by
  cases hmax : l.max? with
  | none => rw [List.max?_eq_none_iff.mp hmax] at ha; cases ha
  | some m => exact (List.max?_eq_some_iff.mp hmax).2 a ha

lemma usage_le_peak (hx : x ∈ e.samples) : x.usage ≤ e.peak := le_max?_getD (List.mem_map_of_mem hx)

lemma peak_cases (e : UsageEvent) : e.peak = 0 ∨ ∃ x ∈ e.samples, x.usage = e.peak := by
  rw [peak]
  cases hmax : (e.samples.map (·.usage)).max? with
  | none => exact .inl rfl
  | some m => exact .inr (List.mem_map.mp (List.max?_mem hmax))

lemma usage_le_peakOf (he : e ∈ es) (hx : x ∈ e.samples) : x.usage ≤ peakOf es :=
  (usage_le_peak hx).trans (le_max_of_le_left (le_max?_getD (List.mem_map_of_mem he)))

lemma peakOf_cases (es : List UsageEvent) : peakOf es = 0 ∨ ∃ e ∈ es, ∃ x ∈ e.samples, x.usage = peakOf es := by
  rw [peakOf]
  rcases max_choice ((es.map peak).max?.getD 0) 0 with hmax | hmax
  · rw [hmax]
    cases hpeak : (es.map peak).max? with
    | none => exact .inl rfl
    | some m =>
      obtain ⟨e, he, rfl⟩ := List.mem_map.mp (List.max?_mem hpeak)
      exact (peak_cases e).imp id fun h => ⟨e, he, h⟩
  · exact .inl hmax

end UsageEvent

namespace Profiler

/-- The start of a session, or what the clock and the total say just before or just after one of its calls. -/
def Reading (s : Profiler) (calls : List Call) (x : Sample) : Prop :=
  x = s.sample s.startedAt ∨ ∃ before c later now, calls = before ++ c :: later ∧ c.time? = some now ∧
    (x = (s.run before).sample now ∨ x = ((s.run before).after c).sample now)

def Current (p : Profiler) : Prop :=
  ∀ top rest, p.stack = top :: rest → ∃ x, top.samples.getLast? = some x ∧ x.usage = p.usage

def Bounds (p : Profiler) : Call → Prop
  | .openEvent .. | .stop _ => p.tracking = true
  | .close _ g => p.tracking = true ∧ g.session = some p.session ∧ 1 < p.stack.length
  | _ => False

variable {p q s : Profiler} {c : Call} {calls before later : List Call} {x : Sample}

lemma Reading.concat (h : Reading s calls x) (c : Call) : Reading s (calls ++ [c]) x := by
  rcases h with h | ⟨before, k, later, now, rfl, htime, hx⟩
  · exact .inl h
  · exact .inr ⟨before, k, later ++ [c], now, by simp, htime, hx⟩

lemma mem_keep {fold : Bool} {before after : Sample} {samples : List Sample} (hx : x ∈ keep fold before after samples) :
    x ∈ samples ∨ x = before ∨ x = after := by
  rw [keep] at hx
  split at hx
  · rcases List.mem_append.mp hx with hx | hx
    · exact .inl ((List.dropLast_prefix _).subset hx)
    · exact .inr (.inr (List.mem_singleton.mp hx))
  · simpa using hx

lemma mem_addSample {e : UsageEvent} {y : Sample} (hx : x ∈ (e.addSample y).samples) : x ∈ e.samples ∨ x = y := by
  simpa [UsageEvent.addSample] using hx

lemma Turn.read (h : Turn p c q) : ∀ e ∈ q.stack ++ q.completed, ∀ x ∈ e.samples,
    (∃ e ∈ p.stack ++ p.completed, x ∈ e.samples) ∨
      ∃ now, c.time? = some now ∧ (x = p.sample now ∨ x = q.sample now) := by
  intro e he x hx
  cases h with
  | idle => exact .inl ⟨e, he, hx⟩
  | tuned => exact .inl ⟨e, he, hx⟩
  | overflowed => exact .inl ⟨e, he, hx⟩
  | missed => exact .inl ⟨e, he, hx⟩
  | @opened now name =>
    rcases List.mem_cons.mp he with rfl | he
    · exact .inr ⟨now, rfl, .inl (List.mem_singleton.mp hx)⟩
    · exact .inl ⟨e, he, hx⟩
  | @changed now delta top rest _ _ hstack =>
    rw [hstack]
    rcases List.mem_cons.mp he with rfl | he
    · rcases mem_keep hx with hx | rfl | rfl
      · exact .inl ⟨top, by simp, hx⟩
      · exact .inr ⟨now, rfl, .inl rfl⟩
      · exact .inr ⟨now, rfl, .inr rfl⟩
    · exact .inl ⟨e, List.mem_cons_of_mem _ he, hx⟩
  | @closed now g y parent rest _ _ hstack =>
    rw [hstack]
    simp only [List.cons_append, List.mem_cons, List.mem_append, List.not_mem_nil, or_false] at he
    rcases he with rfl | he | he | rfl
    · exact (mem_addSample hx).imp (fun hx => ⟨parent, by simp, hx⟩) fun hx => ⟨now, rfl, .inl hx⟩
    · exact .inl ⟨e, by simp [he], hx⟩
    · exact .inl ⟨e, by simp [he], hx⟩
    · exact (mem_addSample hx).imp (fun hx => ⟨y, by simp, hx⟩) fun hx => ⟨now, rfl, .inl hx⟩
  | @stopped now =>
    simp only [List.nil_append, List.mem_append, List.mem_map] at he
    rcases he with he | ⟨y, hy, rfl⟩
    · exact .inl ⟨e, by simp [he], hx⟩
    · exact (mem_addSample hx).imp (fun hx => ⟨y, by simp [hy], hx⟩) fun hx => ⟨now, rfl, .inl hx⟩

lemma getLast_keep (fold : Bool) (before after : Sample) (samples : List Sample) :
    (keep fold before after samples).getLast? = some after := by
  rw [keep]
  split <;> simp

lemma getLast_addSample (e : UsageEvent) (y : Sample) : (e.addSample y).samples.getLast? = some y := by
  simp [UsageEvent.addSample]

lemma Current.turn (h : p.Current) (hturn : Turn p c q) : q.Current := by
  intro top rest hq
  cases hturn with
  | idle => exact h top rest hq
  | tuned => exact h top rest hq
  | overflowed => exact h top rest hq
  | missed => exact h top rest hq
  | opened =>
    obtain ⟨rfl, _⟩ := List.cons.inj hq
    exact ⟨_, rfl, rfl⟩
  | changed =>
    obtain ⟨rfl, _⟩ := List.cons.inj hq
    exact ⟨_, getLast_keep _ _ _ _, rfl⟩
  | closed =>
    obtain ⟨rfl, _⟩ := List.cons.inj hq
    exact ⟨_, getLast_addSample _ _, rfl⟩
  | stopped => cases hq

lemma current_started (p : Profiler) (now : Nat) : (p.started now).Current := by
  rintro top rest ⟨⟩
  exact ⟨_, rfl, rfl⟩

lemma Current.run (h : s.Current) (hs : s.Steady) (hcalls : ∀ c ∈ calls, c.starts = false) : (s.run calls).Current := by
  induction calls generalizing s with
  | nil => exact h
  | cons c calls ih =>
    obtain ⟨hc, hcalls⟩ := List.forall_mem_cons.mp hcalls
    exact ih (h.turn (hs.turn hc)) (hs.after c) hcalls

lemma read_run (hs : s.Steady) (hstart : ∀ e ∈ s.stack ++ s.completed, ∀ x ∈ e.samples, x = s.sample s.startedAt)
    (hcalls : ∀ c ∈ calls, c.starts = false) :
    ∀ e ∈ (s.run calls).stack ++ (s.run calls).completed, ∀ x ∈ e.samples, Reading s calls x := by
  induction calls using List.reverseRecOn with
  | nil => exact fun e he x hx => .inl (hstart e he x hx)
  | append_singleton calls c ih =>
    obtain ⟨hcalls, hc⟩ := List.forall_mem_append.mp hcalls
    intro e he x hx
    rw [run_append, run_cons, run_nil] at he
    have hturn := (hs.run calls).turn (hc c (List.mem_singleton_self c))
    rcases hturn.read e he x hx with ⟨e, he, hx⟩ | ⟨now, htime, hx⟩
    · exact (ih hcalls e he x hx).concat c
    · exact .inr ⟨calls, c, [], now, rfl, htime, hx⟩

lemma Bounds.moves (h : p.Bounds c) (hp : p.Steady) (hturn : Turn p c q) : q.stack.length ≠ p.stack.length := by
  cases hturn with
  | tuned => exact h.elim
  | overflowed => exact h.elim
  | changed => exact h.elim
  | idle _ hidle =>
    cases c with
    | openEvent | stop => cases hidle.symm.trans h
    | close => cases hidle.symm.trans h.1
    | start | record | setGranularity => exact h.elim
  | opened => exact Nat.succ_ne_self _
  | missed hshort => exact absurd (hshort h.2.1) (Nat.not_le.mpr h.2.2)
  | closed _ _ hstack => simp [hstack]
  | stopped htracking => exact (List.length_pos_iff.mpr (hp.tower htracking).ne_nil).ne

lemma Current.marked (h : p.Current) (hp : p.Steady) (hbounds : p.Bounds c) (hturn : Turn p c q) :
    ∃ done name depth kept, Retains done name depth kept q ∧ ∃ x ∈ kept, x.usage = p.usage := by
  have hmoved := hbounds.moves hp hturn
  cases hstack : p.stack with
  | nil =>
    have hidle : p.tracking = false := Bool.eq_false_iff.mpr fun h => hp.tracking_iff.mp h hstack
    obtain ⟨_, rfl⟩ := hturn.of_idle hidle
    exact absurd rfl hmoved
  | cons top rest =>
    obtain ⟨x, hlast, hx⟩ := h top rest hstack
    exact ⟨_, _, _, _, hturn.retains hp hstack hmoved, x, List.mem_of_getLast? hlast, hx⟩

lemma Retains.le_peak {done : List UsageEvent} {name : String} {depth : Nat} {kept : List Sample}
    (h : Retains done name depth kept p) (hp : p.stack = []) (hx : x ∈ kept) : x.usage ≤ p.peak := by
  obtain ⟨inner, e, later, hcompleted, _, _, _, hkept⟩ := h.found hp
  exact UsageEvent.usage_le_peakOf (by simp [hcompleted] : e ∈ p.completed) (hkept.subset hx)

lemma Reading.total (h : Reading s calls x) : ∃ before, before <+: calls ∧ x.usage = (s.run before).usage := by
  rcases h with rfl | ⟨before, c, later, now, rfl, _, rfl | rfl⟩
  · exact ⟨[], List.nil_prefix, rfl⟩
  · exact ⟨before, List.prefix_append _ _, rfl⟩
  · exact ⟨before ++ [c], ⟨later, by simp⟩, by rw [run_append]; rfl⟩

lemma Current.le_peak (h : s.Current) (hs : s.Steady) (hcalls : ∀ k ∈ before ++ c :: later, k.starts = false)
    (hover : (s.run (before ++ c :: later)).tracking = false) (hbounds : (s.run before).Bounds c) :
    (s.run before).usage ≤ (s.run (before ++ c :: later)).peak := by
  obtain ⟨hbefore, hrest⟩ := List.forall_mem_append.mp hcalls
  obtain ⟨hc, hlater⟩ := List.forall_mem_cons.mp hrest
  have hsteady := hs.run before
  obtain ⟨done, name, depth, kept, hretains, x, hx, husage⟩ :=
    (h.run hs hbefore).marked hsteady hbounds (hsteady.turn hc)
  have hend := hretains.run (hsteady.after c) hlater
  rw [← husage]
  rw [run_append, run_cons] at hover ⊢
  exact hend.le_peak (((hsteady.after c).run later).idle hover) hx

lemma peak_le (hread : ∀ e ∈ p.completed, ∀ x ∈ e.samples, Reading s calls x) :
    ∃ before, before <+: calls ∧ p.peak ≤ max 0 (s.run before).usage := by
  rcases UsageEvent.peakOf_cases p.completed with hzero | ⟨e, he, x, hx, hpeak⟩
  · exact ⟨[], List.nil_prefix, hzero.trans_le (le_max_left _ _)⟩
  · obtain ⟨before, hbefore, husage⟩ := (hread e he x hx).total
    exact ⟨before, hbefore, (hpeak.symm.trans husage).trans_le (le_max_right _ _)⟩

lemma usage_stopped (p : Profiler) (now : Nat) : (p.stopped now).usage = p.usage := by
  rw [stopped]
  split <;> rfl

/-- Whatever the granularity, every sample of a session is a reading of it, and the newest one of the innermost
event shows the total. When the session has been stopped, the peak is no higher than the highest total and no lower
than the total was at the stop, or at any time when an event was opened or closed. -/
theorem folding_truthful (p : Profiler) (start stop : Nat) (hcalls : ∀ c ∈ calls, c.starts = false ∧ c.stops = false)
    (hlater : ∀ c ∈ later, c.starts = false) :
    (∀ e ∈ ((p.started start).run calls).stack ++ ((p.started start).run calls).completed, ∀ x ∈ e.samples,
      Reading (p.started start) calls x) ∧
    (∃ top rest x, ((p.started start).run calls).stack = top :: rest ∧ top.samples.getLast? = some x ∧
      x.usage = ((p.started start).run calls).usage) ∧
    ((p.started start).run (calls ++ .stop stop :: later)).tracking = false ∧
    (∀ e ∈ ((p.started start).run (calls ++ .stop stop :: later)).completed, ∀ x ∈ e.samples,
      Reading (p.started start) (calls ++ [.stop stop]) x) ∧
    (∃ before, before <+: calls ∧
      ((p.started start).run (calls ++ .stop stop :: later)).peak ≤ max 0 ((p.started start).run before).usage) ∧
    ((p.started start).run calls).usage ≤ ((p.started start).run (calls ++ .stop stop :: later)).peak ∧
    ∀ before c between, calls = before ++ c :: between → ((p.started start).run before).Bounds c →
      ((p.started start).run before).usage ≤ ((p.started start).run (calls ++ .stop stop :: later)).peak := by
  have hsteady := steady_started p start
  have hcurrent := current_started p start
  have hquiet : ∀ c ∈ calls, c.starts = false := fun c hc => (hcalls c hc).1
  have hstopping : ∀ c ∈ calls ++ [.stop stop], c.starts = false :=
    List.forall_mem_append.mpr ⟨hquiet, List.forall_mem_singleton.mpr rfl⟩
  have hreads {calls : List Call} (hcalls : ∀ c ∈ calls, c.starts = false) := read_run hsteady (fun e he x hx => by
    obtain rfl := List.mem_singleton.mp he
    rw [List.mem_singleton.mp hx, sample, Nat.sub_self]
    rfl) hcalls
  have htracking : ((p.started start).run calls).tracking = true :=
    (tracking_run hsteady hquiet).mpr ⟨rfl, fun c hc => (hcalls c hc).2⟩
  have hidle : ((p.started start).run (calls ++ [.stop stop])).tracking = false :=
    idle_of_stops hsteady hstopping ⟨.stop stop, by simp, rfl⟩
  -- What comes after the stop leaves what was completed.
  obtain ⟨granularity, hover⟩ := idle_run (hsteady.run _) hidle hlater
  rw [← run_append, List.append_assoc, List.singleton_append] at hover
  have hread := fun e he => hreads hstopping e (List.mem_append_right _ he)
  rw [hover]
  refine ⟨hreads hquiet, ?_, hidle, hread, ?_, ?_, ?_⟩
  · obtain ⟨top, rest, hstack⟩ := List.exists_cons_of_ne_nil ((hsteady.run calls).tower htracking).ne_nil
    obtain ⟨x, hx⟩ := hcurrent.run hsteady hquiet top rest hstack
    exact ⟨top, rest, x, hstack, hx⟩
  · obtain ⟨before, hbefore, hpeak⟩ := peak_le hread
    rcases List.prefix_concat_iff.mp hbefore with rfl | hprefix
    · have husage : ((p.started start).run (calls ++ [.stop stop])).usage = ((p.started start).run calls).usage := by
        rw [run_append, run_cons, run_nil, after_stop, usage_stopped]
      rw [husage] at hpeak
      exact ⟨calls, List.prefix_rfl, hpeak⟩
    · exact ⟨before, hprefix, hpeak⟩
  · exact hcurrent.le_peak hsteady hstopping hidle htracking
  · rintro before c between rfl hbounds
    rw [List.append_assoc, List.cons_append] at hstopping hidle ⊢
    exact hcurrent.le_peak hsteady hstopping hidle hbounds

def coarse : List Call :=
  [.openEvent 0 "outer", .record 4 100, .openEvent 5 "inner", .record 6 (-30)]

theorem folding_truthful_coarse :
    (∀ c ∈ coarse, c.starts = false ∧ c.stops = false) ∧ (∀ c ∈ [Call.record 8 1000], c.starts = false) ∧
    (((idle 1000 0).started 0).run (coarse ++ [.stop 7, .record 8 1000])).completed.map (·.samples) =
      [[⟨6, 70⟩, ⟨7, 70⟩], [⟨4, 100⟩, ⟨7, 70⟩], [⟨0, 0⟩, ⟨7, 70⟩]] ∧
    (∀ e ∈ (((idle 1000 0).started 0).run (coarse ++ [.stop 7, .record 8 1000])).completed, ∀ x ∈ e.samples,
      Reading ((idle 1000 0).started 0) (coarse ++ [.stop 7]) x) ∧
    70 ≤ (((idle 1000 0).started 0).run (coarse ++ [.stop 7, .record 8 1000])).peak ∧
    100 ≤ (((idle 1000 0).started 0).run (coarse ++ [.stop 7, .record 8 1000])).peak := by
  have hcoarse : ∀ c ∈ coarse, c.starts = false ∧ c.stops = false := by decide
  have hlater : ∀ c ∈ [Call.record 8 1000], c.starts = false := by decide
  obtain ⟨_, _, _, hread, _, hstop, hbounds⟩ := folding_truthful (idle 1000 0) 0 7 hcoarse hlater
  exact ⟨hcoarse, hlater, by decide, hread, hstop,
    hbounds [.openEvent 0 "outer", .record 4 100] (.openEvent 5 "inner") [.record 6 (-30)] rfl rfl⟩

end Profiler

end BitStore
