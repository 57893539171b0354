import BitStore.Proofs.Usage.Chronology
import BitStore.Proofs.Usage.Readings
import Mathlib

namespace BitStore

namespace UsageEvent

variable {a b : UsageEvent} {es fs : List UsageEvent}

lemma startsNoLater_trans (a b c : UsageEvent) (hab : a.startsNoLater b = true) (hbc : b.startsNoLater c = true) :
    a.startsNoLater c = true := by
  unfold startsNoLater at *
  match ha : a.span?, hb : b.span?, hc : c.span? with
  | none, _, _ => rfl
  | some _, none, _ => simp [ha, hb] at hab
  | some _, some _, none => simp [hb, hc] at hbc
  | some (s, t), some (u, v), some (x, y) =>
    simp only [ha, hb, hc, Bool.or_eq_true, Bool.and_eq_true, decide_eq_true_eq, beq_iff_eq] at hab hbc ⊢
    omega

lemma startsNoLater_total (a b : UsageEvent) : (a.startsNoLater b || b.startsNoLater a) = true := by
  rw [startsNoLater, startsNoLater]
  rcases a.span? with _ | ⟨s, t⟩ <;> rcases b.span? with _ | ⟨u, v⟩ <;> simp
  omega

lemma startsNoLater_of_span (h : a.span? = b.span?) : a.startsNoLater b = true := by
  simp only [startsNoLater, h]
  cases b.span? <;> simp

lemma startsNoLater_iff (ha : a.samples ≠ []) (hb : b.samples ≠ []) : a.startsNoLater b = true ↔
    a.firstTime < b.firstTime ∨ a.firstTime = b.firstTime ∧ a.lastTime ≤ b.lastTime := by
  simp [startsNoLater, span?_eq ha, span?_eq hb]

lemma peakOf_mono (h : es ⊆ fs) : peakOf es ≤ peakOf fs := by
  refine max_le ?_ (le_max_right _ _)
  cases hmax : (es.map peak).max? with
  | none => exact le_max_right _ _
  | some x =>
    obtain ⟨e, he, rfl⟩ := List.mem_map.mp (List.max?_mem hmax)
    exact (le_max?_getD (List.mem_map_of_mem (h he))).trans (le_max_left _ _)

lemma peakOf_perm (h : es.Perm fs) : peakOf es = peakOf fs :=
  (peakOf_mono h.subset).antisymm (peakOf_mono h.symm.subset)

end UsageEvent

namespace Profiler

open UsageEvent

/-- Events by number, in the order in which a session opens them: the names given, and the numbers of the events
that stand open, innermost first, and of those that are completed. -/
structure Numbering where
  names : List String
  stack : List Nat
  completed : List Nat

namespace Numbering

def after (o : Numbering) (p : Profiler) : Call → Numbering
  | .start _ => ⟨[rootEvent], [0], []⟩
  | .openEvent _ name =>
    if p.tracking then ⟨o.names ++ [name], o.names.length :: o.stack, o.completed⟩ else o
  | .close _ g =>
    if p.tracking && g.session = some p.session then
      match o.stack with
      | e :: parent :: rest => ⟨o.names, parent :: rest, o.completed ++ [e]⟩
      | _ => o
    else o
  | .stop _ => if p.tracking then ⟨o.names, [], o.completed ++ o.stack⟩ else o
  | _ => o

def run (o : Numbering) (p : Profiler) : List Call → Numbering
  | [] => o
  | c :: calls => (o.after p c).run (p.after c) calls

end Numbering

def tagged (p : Profiler) (o : Numbering) : List (UsageEvent × Nat) :=
  p.completed.zip o.completed ++ p.stack.zip o.stack

structure Numbered (clock : Nat) (p : Profiler) (o : Numbering) : Prop where
  timed : Timed clock p
  completed : o.completed.length = p.completed.length
  stack : o.stack.length = p.stack.length
  numbers : (o.completed ++ o.stack).Perm (List.range o.names.length)
  names : ∀ x ∈ tagged p o, o.names[x.2]? = some x.1.name
  ordered : ∀ x ∈ tagged p o, ∀ y ∈ tagged p o, x.2 < y.2 → x.1.firstTime ≤ y.1.firstTime
  newest : ∀ top rest, p.stack = top :: rest → top.samples.length = 1 → ∀ n ∈ o.stack.head?, n + 1 = o.names.length

variable {p q : Profiler} {o : Numbering} {c : Call} {calls : List Call} {clock now start : Nat}

section Turns

lemma after_idle (hc : c.starts = false) (hp : p.tracking = false) : o.after p c = o := by
  cases c with
  | start => cases hc
  | _ => simp [Numbering.after, hp]

lemma after_missed {g : EventGuard} (h : g.session = some p.session → o.stack.length ≤ 1) :
    o.after p (.close now g) = o := by
  rw [Numbering.after]
  split
  · next hg =>
    match hstack : o.stack with
    | [] => rfl
    | [_] => rfl
    | _ :: _ :: _ =>
      simp only [Bool.and_eq_true, decide_eq_true_eq] at hg
      simpa [hstack] using h hg.2
  · rfl

lemma after_closed {g : EventGuard} {e parent : UsageEvent} {rest : List UsageEvent} (hp : Numbered clock p o)
    (htracking : p.tracking = true) (hg : g.session = some p.session) (hstack : p.stack = e :: parent :: rest)
    (now : Nat) : ∃ n m others, o.stack = n :: m :: others ∧
      o.after p (.close now g) = ⟨o.names, m :: others, o.completed ++ [n]⟩ := by
  have hlength := hp.stack
  rw [hstack] at hlength
  match hnumbers : o.stack, hlength with
  | n :: m :: others, _ => exact ⟨n, m, others, rfl, by simp [Numbering.after, htracking, hg, hnumbers]⟩

lemma firstTime_keep_cases {e : UsageEvent} (h : e.samples ≠ []) (fold : Bool) (before after : Sample) :
    ({ e with samples := keep fold before after e.samples } : UsageEvent).firstTime = e.firstTime ∨
    e.samples.length = 1 ∧
      ({ e with samples := keep fold before after e.samples } : UsageEvent).firstTime = after.time := by
  by_cases hmany : 1 < e.samples.length
  · exact .inl (firstTime_keep hmany fold)
  · have hpos := List.length_pos_iff.mpr h
    obtain ⟨x, hx⟩ := List.length_eq_one_iff.mp (le_antisymm (Nat.not_lt.mp hmany) hpos)
    cases fold with
    | true => exact .inr ⟨by rw [hx]; rfl, by simp [keep, firstTime, hx]⟩
    | false => exact .inl (by simp [keep, firstTime, hx])

lemma Turn.beginnings (h : Turn p c q) (hp : Numbered clock p o) (hc : c.starts = false) :
    ∀ x ∈ tagged q (o.after p c),
      (∃ y ∈ tagged p o, y.2 = x.2 ∧ y.1.name = x.1.name ∧ y.1.firstTime = x.1.firstTime) ∨
      (x.2 + 1 = (o.after p c).names.length ∧ (o.after p c).names[x.2]? = some x.1.name ∧
        x.1.firstTime = c.time?.getD clock - p.startedAt) := by
  have hsame : ∀ x ∈ tagged p o, ∃ y ∈ tagged p o,
      y.2 = x.2 ∧ y.1.name = x.1.name ∧ y.1.firstTime = x.1.firstTime := fun x hx => ⟨x, hx, rfl, rfl, rfl⟩
  cases h with
  | idle _ hidle =>
    rw [after_idle hc hidle]
    exact fun x hx => .inl (hsame x hx)
  | tuned => exact fun x hx => .inl (hsame x hx)
  | overflowed => exact fun x hx => .inl (hsame x hx)
  | missed hmissed =>
    rw [after_missed (hp.stack ▸ hmissed)]
    exact fun x hx => .inl (hsame x hx)
  | opened htracking =>
    simp only [Numbering.after, htracking, if_true, tagged, List.zip_cons_cons, List.mem_append, List.mem_cons]
      at hsame ⊢
    rintro x (hx | rfl | hx)
    · exact .inl (hsame x (.inl hx))
    · exact .inr ⟨by simp, by simp, rfl⟩
    · exact .inl (hsame x (.inr hx))
  | @changed now delta top rest _ _ htop =>
    obtain ⟨n, others, hnumbers⟩ : ∃ n others, o.stack = n :: others :=
      List.exists_cons_of_length_pos (by simp [hp.stack, htop])
    have hsampled := (hp.timed.timely top (by simp [events, htop])).sampled
    have hname := hp.names (top, n) (by simp [tagged, htop, hnumbers])
    simp only [Numbering.after, tagged, htop, hnumbers, List.zip_cons_cons, List.mem_append, List.mem_cons]
      at hsame ⊢
    rintro x (hx | rfl | hx)
    · exact .inl (hsame x (.inl hx))
    · rcases firstTime_keep_cases hsampled (p.folds now) (p.sample now) ⟨now - p.startedAt, p.usage + delta⟩ with
        hfirst | ⟨hone, hfirst⟩
      · exact .inl ⟨(top, n), .inr (.inl rfl), rfl, rfl, hfirst.symm⟩
      · exact .inr ⟨hp.newest top rest htop hone n (by simp [hnumbers]), hname, hfirst⟩
    · exact .inl (hsame x (.inr (.inr hx)))
  | @closed now g e parent rest htracking hg htop =>
    obtain ⟨n, m, others, hnumbers, hafter⟩ := after_closed hp htracking hg htop now
    have he := (hp.timed.timely e (by simp [events, htop])).sampled
    have hparent := (hp.timed.timely parent (by simp [events, htop])).sampled
    have hfirst {e : UsageEvent} (he : e.samples ≠ []) : (e.addSample (p.sample now)).firstTime = e.firstTime :=
      congrArg Prod.snd (outset_addSample he _)
    simp only [tagged, hafter, htop, hnumbers, List.zip_append hp.completed.symm, List.zip_cons_cons,
      List.zip_nil_left, List.mem_append, List.mem_cons, List.not_mem_nil, or_false] at hsame ⊢
    rintro x ((hx | rfl) | rfl | hx)
    · exact .inl (hsame x (.inl hx))
    · exact .inl ⟨(e, n), .inr (.inl rfl), rfl, rfl, (hfirst he).symm⟩
    · exact .inl ⟨(parent, m), .inr (.inr (.inl rfl)), rfl, rfl, (hfirst hparent).symm⟩
    · exact .inl (hsame x (.inr (.inr (.inr hx))))
  | @stopped now htracking =>
    have hfirst : ∀ e ∈ p.stack, (e.addSample (p.sample now)).firstTime = e.firstTime := fun e he =>
      congrArg Prod.snd (outset_addSample (hp.timed.timely e (by simp [events, he])).sampled _)
    simp only [tagged, Numbering.after, htracking, if_true, List.zip_append hp.completed.symm, List.zip_nil_left,
      List.append_nil, List.zip_map_left, List.mem_append, List.mem_map] at hsame ⊢
    rintro _ (hx | ⟨⟨e, n⟩, he, rfl⟩)
    · exact .inl (hsame _ (.inl hx))
    · exact .inl ⟨(e, n), .inr he, rfl, rfl, (hfirst e (List.of_mem_zip he).1).symm⟩

lemma Turn.numbers (h : Turn p c q) (hp : Numbered clock p o) (hc : c.starts = false) :
    (o.after p c).completed.length = q.completed.length ∧ (o.after p c).stack.length = q.stack.length ∧
      ((o.after p c).completed ++ (o.after p c).stack).Perm (List.range (o.after p c).names.length) := by
  have hsame := And.intro hp.completed (And.intro hp.stack hp.numbers)
  cases h with
  | idle _ hidle =>
    rw [after_idle hc hidle]
    exact hsame
  | tuned => exact hsame
  | overflowed => exact hsame
  | missed hmissed =>
    rw [after_missed (hp.stack ▸ hmissed)]
    exact hsame
  | changed _ _ hstack =>
    rw [hstack] at hsame
    exact hsame
  | opened htracking =>
    rw [Numbering.after, if_pos htracking]
    refine ⟨hp.completed, congrArg Nat.succ hp.stack, ?_⟩
    rw [List.length_append, List.length_singleton, List.range_succ]
    refine List.perm_middle.trans ?_
    exact (hp.numbers.cons _).trans (List.perm_append_singleton _ _).symm
  | @closed now g e parent rest htracking hg hstack =>
    obtain ⟨n, m, others, hnumbers, hafter⟩ := after_closed hp htracking hg hstack now
    rw [hnumbers, hstack] at hsame
    rw [hafter]
    refine ⟨by simp [hp.completed], Nat.succ.inj hsame.2.1, ?_⟩
    rw [List.append_assoc]
    exact hsame.2.2
  | stopped htracking =>
    rw [Numbering.after, if_pos htracking]
    refine ⟨by simp [hp.completed, hp.stack], rfl, ?_⟩
    rw [List.append_nil]
    exact hp.numbers

lemma Turn.newest (h : Turn p c q) (hp : Numbered clock p o) (hc : c.starts = false) : ∀ top rest,
    q.stack = top :: rest → top.samples.length = 1 →
      ∀ n ∈ (o.after p c).stack.head?, n + 1 = (o.after p c).names.length := by
  cases h with
  | idle _ hidle =>
    rw [after_idle hc hidle]
    exact hp.newest
  | tuned => exact hp.newest
  | overflowed => exact hp.newest
  | missed hmissed =>
    rw [after_missed (hp.stack ▸ hmissed)]
    exact hp.newest
  | opened htracking =>
    rw [Numbering.after, if_pos htracking]
    rintro _ _ ⟨⟩ _ n hn
    obtain rfl := Option.some.inj hn
    rw [List.length_append, List.length_singleton]
  | @changed now delta top rest _ _ hstack =>
    rintro _ _ ⟨⟩ hone
    have hsampled := (hp.timed.timely top (by simp [events, hstack])).sampled
    have hlen : top.samples.length ≤ 1 := (le_length_keep hsampled _).trans hone.le
    exact hp.newest top rest hstack (hlen.antisymm (List.length_pos_iff.mpr hsampled))
  | @closed now g e parent rest _ _ hstack =>
    rintro _ _ ⟨⟩ hone
    have hsampled := (hp.timed.timely parent (by simp [events, hstack])).sampled
    simp [UsageEvent.addSample, hsampled] at hone
  | stopped => rintro _ _ ⟨⟩

end Turns

section Runs

lemma names_after (hc : c.starts = false) {i : Nat} {name : String} (h : o.names[i]? = some name) :
    (o.after p c).names[i]? = some name := by
  cases c with
  | start => cases hc
  | openEvent now name =>
    rw [Numbering.after]
    split
    · exact (List.getElem?_append_left (List.getElem?_eq_some_iff.mp h).1).trans h
    · exact h
  | close now g =>
    rw [Numbering.after]
    split
    · split <;> exact h
    · exact h
  | stop now =>
    rw [Numbering.after]
    split <;> exact h
  | _ => exact h

lemma mem_events_of_tagged {x : UsageEvent × Nat} (hx : x ∈ tagged p o) : x.1 ∈ p.events :=
  List.mem_append.mpr ((List.mem_append.mp hx).imp (fun h => (List.of_mem_zip h).1) fun h => (List.of_mem_zip h).1)

lemma Numbered.turn (hp : Numbered clock p o) (h : Turn p c q) (hc : c.starts = false)
    (hle : clock ≤ c.time?.getD clock) : Numbered (c.time?.getD clock) q (o.after p c) := by
  have hbegin := h.beginnings hp hc
  obtain ⟨hcompleted, hstack, hnumbers⟩ := h.numbers hp hc
  have hnames : ∀ x ∈ tagged q (o.after p c), (o.after p c).names[x.2]? = some x.1.name := by
    intro x hx
    rcases hbegin x hx with ⟨y, hy, hnumber, hname, _⟩ | ⟨_, hname, _⟩
    · rw [← hnumber, ← hname]
      exact names_after hc (hp.names y hy)
    · exact hname
  refine ⟨hp.timed.turn h hle, hcompleted, hstack, hnumbers, hnames, fun x hx y hy hlt => ?_, h.newest hp hc⟩
  -- An event whose first sample is not what it was is the newest one and begins now, no earlier than the others.
  rcases hbegin x hx with ⟨u, hu, hxnumber, _, hxfirst⟩ | ⟨hxnewest, _, _⟩
  · rcases hbegin y hy with ⟨v, hv, hynumber, _, hyfirst⟩ | ⟨_, _, hynow⟩
    · rw [← hxfirst, ← hyfirst]
      exact hp.ordered u hu v hv (by omega)
    · have htimely := (hp.timed.timely u.1 (mem_events_of_tagged hu)).firstTime_le
      rw [← hxfirst, hynow]
      exact htimely.trans (Nat.sub_le_sub_right hle _)
  · have hbound := (List.getElem?_eq_some_iff.mp (hnames y hy)).1
    omega

lemma numbered_started (p : Profiler) (o : Numbering) (start : Nat) :
    Numbered start (p.started start) (o.after p (.start start)) where
  timed := timed_started p start
  completed := rfl
  stack := rfl
  numbers := .refl _
  names := by
    rintro x hx
    obtain rfl := List.mem_singleton.mp hx
    rfl
  ordered := by
    rintro x hx y hy hlt
    obtain rfl := List.mem_singleton.mp hx
    obtain rfl := List.mem_singleton.mp hy
    exact absurd hlt (Nat.lt_irrefl _)
  newest := by
    rintro _ _ ⟨⟩ _ n hn
    obtain rfl := Option.some.inj hn
    rfl

lemma numbered_idle (granularity now : Nat) : Numbered now (idle granularity now) ⟨[], [], []⟩ where
  timed := ⟨steady_idle granularity now, nofun, .nil, trivial, nofun⟩
  completed := rfl
  stack := rfl
  numbers := .refl _
  names := nofun
  ordered := nofun
  newest := nofun

lemma Numbered.run (hp : Numbered clock p o) (hclock : Chronological clock calls) :
    ∃ last, Numbered last (p.run calls) (o.run p calls) := by
  induction calls generalizing p o clock with
  | nil => exact ⟨clock, hp⟩
  | cons c calls ih =>
    obtain ⟨hle, hlater⟩ := hclock.cons
    refine ih ?_ hlater
    cases c with
    | start start => exact numbered_started p o start
    | _ => exact hp.turn (hp.timed.steady.turn rfl) rfl hle

end Runs

section Reports

lemma report_sorted (p : Profiler) : p.report.events.Pairwise fun e f => e.startsNoLater f = true :=
  List.pairwise_mergeSort startsNoLater_trans startsNoLater_total _

lemma report_perm (p : Profiler) : p.report.events.Perm p.completed := List.mergeSort_perm _ _

lemma report_stable (p : Profiler) (span? : Option (Nat × Nat)) :
    p.report.events.filter (·.span? = span?) = p.completed.filter (·.span? = span?) := by
  have htied : (p.completed.filter (·.span? = span?)).Pairwise fun e f => e.startsNoLater f = true :=
    List.pairwise_of_forall_mem_list fun e he f hf => startsNoLater_of_span (by
      rw [List.mem_filter, decide_eq_true_eq] at he hf
      exact he.2.trans hf.2.symm)
  have hsublist := (List.sublist_mergeSort startsNoLater_trans startsNoLater_total htied List.filter_sublist).filter
    (·.span? = span?)
  rw [List.filter_filter] at hsublist
  simp only [Bool.and_self] at hsublist
  exact (hsublist.eq_of_length ((report_perm p).filter _).length_eq.symm).symm

lemma report_peak (p : Profiler) : p.report.peak = p.peak := peakOf_perm (report_perm p)

lemma Numbered.report (hp : Numbered clock p o) : ∃ sorted : List (UsageEvent × Nat),
    sorted.Perm (p.completed.zip o.completed) ∧ sorted.map Prod.fst = p.report.events ∧
    sorted.Pairwise fun x y => y.2 < x.2 → y.1.firstTime = x.1.firstTime := by
  refine ⟨(p.completed.zip o.completed).mergeSort fun x y => x.1.startsNoLater y.1, List.mergeSort_perm _ _, ?_, ?_⟩
  · have hmap : ((p.completed.zip o.completed).mergeSort fun x y => x.1.startsNoLater y.1).map Prod.fst =
        ((p.completed.zip o.completed).map Prod.fst).mergeSort startsNoLater := List.map_mergeSort fun _ _ _ _ => rfl
    rw [hmap, List.map_fst_zip hp.completed.ge]
    rfl
  · have hsorted := List.pairwise_mergeSort (fun x y z => startsNoLater_trans x.1 y.1 z.1)
      (fun x y => startsNoLater_total x.1 y.1) (p.completed.zip o.completed)
    refine hsorted.imp_of_mem fun {x y} hx hy hxy hlt => ?_
    have hx := List.mem_append_left (p.stack.zip o.stack) (List.mem_mergeSort.mp hx)
    have hy := List.mem_append_left (p.stack.zip o.stack) (List.mem_mergeSort.mp hy)
    have hsampled {z : UsageEvent × Nat} (hz : z ∈ tagged p o) :=
      (hp.timed.timely z.1 (mem_events_of_tagged hz)).sampled
    have hle := hp.ordered y hy x hx hlt
    have hge := (startsNoLater_iff (hsampled hx) (hsampled hy)).mp hxy
    omega

/-- On a clock that never goes back the report has the completed events by their first and last times, those with
the same in the order of completion. By the numbers of the openings no event begins before one opened earlier, and
it stands before that one in the report only if they begin together. -/
theorem report_ordered (hclock : Chronological now calls) (granularity : Nat)
    (hp : (idle granularity now).run calls = p) (ho : Numbering.run ⟨[], [], []⟩ (idle granularity now) calls = o) :
    (∀ e ∈ p.events, e.span? = some (e.firstTime, e.lastTime)) ∧
    (p.report.events.Perm p.completed ∧
      p.report.events.Pairwise (fun e f =>
        e.firstTime < f.firstTime ∨ e.firstTime = f.firstTime ∧ e.lastTime ≤ f.lastTime) ∧
      (∀ span?, p.report.events.filter (·.span? = span?) = p.completed.filter (·.span? = span?)) ∧
      p.report.peak = p.peak) ∧
    ((o.completed ++ o.stack).Perm (List.range o.names.length) ∧
      (tagged p o).map Prod.fst = p.events ∧ (tagged p o).map Prod.snd = o.completed ++ o.stack ∧
      (∀ x ∈ tagged p o, o.names[x.2]? = some x.1.name) ∧
      ∀ x ∈ tagged p o, ∀ y ∈ tagged p o, x.2 < y.2 → x.1.firstTime ≤ y.1.firstTime) ∧
    ∃ sorted : List (UsageEvent × Nat), sorted.Perm (p.completed.zip o.completed) ∧
      sorted.map Prod.fst = p.report.events ∧
      sorted.Pairwise fun x y => y.2 < x.2 → y.1.firstTime = x.1.firstTime := by
  obtain ⟨last, hnumbered⟩ := (numbered_idle granularity now).run hclock
  rw [hp, ho] at hnumbered
  have hsampled : ∀ e ∈ p.events, e.samples ≠ [] := fun e he => (hnumbered.timed.timely e he).sampled
  have hreported : ∀ e ∈ p.report.events, e.samples ≠ [] := fun e he =>
    hsampled e (List.mem_append_left _ ((report_perm p).subset he))
  refine ⟨fun e he => span?_eq (hsampled e he), ⟨report_perm p, ?_, report_stable p, report_peak p⟩,
    ⟨hnumbered.numbers, ?_, ?_, hnumbered.names, hnumbered.ordered⟩, hnumbered.report⟩
  · exact (report_sorted p).imp_of_mem fun he hf hle => (startsNoLater_iff (hreported _ he) (hreported _ hf)).mp hle
  · rw [tagged, List.map_append, List.map_fst_zip hnumbered.completed.ge, List.map_fst_zip hnumbered.stack.ge]
    rfl
  · rw [tagged, List.map_append, List.map_snd_zip hnumbered.completed.le, List.map_snd_zip hnumbered.stack.le]

def hurried : List Call :=
  [.start 0, .openEvent 1 "outer", .record 5 7, .openEvent 5 "first", .close 6 ⟨some 1⟩, .openEvent 6 "second",
    .record 8 (-3), .close 9 ⟨some 1⟩, .stop 31]

theorem report_ordered_hurried :
    ((idle 20 0).run hurried).report.events.map (fun e => (e.name, e.span?)) =
      [("unknown", some (0, 31)), ("first", some (5, 6)), ("outer", some (5, 31)), ("second", some (8, 9))] ∧
    (Numbering.run ⟨[], [], []⟩ (idle 20 0) hurried).completed = [2, 3, 1, 0] ∧
    ∃ sorted : List (UsageEvent × Nat), sorted.Perm (((idle 20 0).run hurried).completed.zip [2, 3, 1, 0]) ∧
      sorted.map Prod.fst = ((idle 20 0).run hurried).report.events ∧
      sorted.Pairwise fun x y => y.2 < x.2 → y.1.firstTime = x.1.firstTime := by
  have hclock : Chronological 0 hurried := by
    rw [Chronological]
    decide
  exact ⟨by cbv, by decide, (report_ordered hclock 20 rfl rfl).2.2.2⟩

end Reports

end Profiler

end BitStore
