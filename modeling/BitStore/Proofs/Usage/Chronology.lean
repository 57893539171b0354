import BitStore.Proofs.Usage.Nesting

namespace BitStore

namespace UsageEvent

def firstTime (e : UsageEvent) : Nat := (e.samples.head?.map (·.time)).getD 0

def lastTime (e : UsageEvent) : Nat := (e.samples.getLast?.map (·.time)).getD 0

def outset (e : UsageEvent) : Nat × Nat := (e.depth, e.firstTime)

structure Timely (time : Nat) (e : UsageEvent) : Prop where
  sampled : e.samples ≠ []
  sorted : e.samples.Pairwise fun x y => x.time ≤ y.time
  past : ∀ x ∈ e.samples, x.time ≤ time

variable {e : UsageEvent} {s : Sample} {time later : Nat}

lemma span?_eq (h : e.samples ≠ []) : e.span? = some (e.firstTime, e.lastTime) := by
  rw [span?, firstTime, lastTime, List.head?_eq_some_head h, List.getLast?_eq_some_getLast h]
  rfl

lemma Timely.mono (h : e.Timely time) (hle : time ≤ later) : e.Timely later :=
  ⟨h.sampled, h.sorted, fun x hx => (h.past x hx).trans hle⟩

lemma Timely.lastTime_le (h : e.Timely time) : e.lastTime ≤ time := by
  rw [lastTime, List.getLast?_eq_some_getLast h.sampled]
  exact h.past _ (List.getLast_mem h.sampled)

lemma Timely.firstTime_le (h : e.Timely time) : e.firstTime ≤ time := by
  rw [firstTime, List.head?_eq_some_head h.sampled]
  exact h.past _ (List.head_mem h.sampled)

lemma Timely.addSample (h : e.Timely time) (hle : time ≤ later) (hs : s.time = later) :
    (e.addSample s).Timely later where
  sampled := by simp [UsageEvent.addSample]
  sorted := List.pairwise_append.mpr ⟨h.sorted, List.pairwise_singleton _ _, fun x hx y hy => by
    rw [List.mem_singleton.mp hy, hs]
    exact (h.past x hx).trans hle⟩
  past := List.forall_mem_append.mpr ⟨fun x hx => (h.past x hx).trans hle, by simp [hs]⟩

lemma timely_single (s : Sample) (name : String) (depth : Nat) : Timely s.time ⟨name, depth, [s]⟩ :=
  ⟨List.cons_ne_nil _ _, List.pairwise_singleton _ _, by simp⟩

lemma lastTime_addSample (e : UsageEvent) (s : Sample) : (e.addSample s).lastTime = s.time := by
  simp [lastTime, UsageEvent.addSample]

lemma outset_addSample (h : e.samples ≠ []) (s : Sample) : (e.addSample s).outset = e.outset := by
  simp [outset, firstTime, UsageEvent.addSample, List.head?_append_of_ne_nil _ h]

end UsageEvent

namespace Profiler

def Chronological (start : Nat) (calls : List Call) : Prop :=
  (start :: calls.filterMap Call.time?).Pairwise (· ≤ ·)

/-- Events in the order in which they end, as depths and first times: each but those of depth 0 begins no
earlier than the first later one that is less deep, which is so by one level. -/
def Sheltered : List (Nat × Nat) → Prop
  | [] => True
  | (depth, first) :: later => (0 < depth → ∃ x, later.find? (·.1 < depth) = some x ∧ x.1 + 1 = depth ∧ x.2 ≤ first) ∧
      Sheltered later

/-- On the clock up to `clock`. A first sample that may still be replaced belongs to an event within which none
has ended (`single`). -/
structure Timed (clock : Nat) (p : Profiler) : Prop where
  steady : p.Steady
  timely : ∀ e ∈ p.events, e.Timely (clock - p.startedAt)
  ended : p.completed.Pairwise fun e f => e.lastTime ≤ f.lastTime
  sheltered : Sheltered (p.events.map UsageEvent.outset)
  single : ∀ top rest, p.stack = top :: rest → top.samples.length = 1 →
    ∀ e ∈ p.completed.getLast?, e.depth ≤ rest.length

open UsageEvent

variable {p q : Profiler} {c : Call} {calls : List Call} {clock now start : Nat}

section Shelter

variable {before later tower : List (Nat × Nat)} {depth first raised : Nat}

lemma Sheltered.split (h : Sheltered (before ++ (depth, first) :: later)) (hd : 0 < depth) :
    ∃ x, later.find? (·.1 < depth) = some x ∧ x.1 + 1 = depth ∧ x.2 ≤ first := by
  induction before with
  | nil => exact h.1 hd
  | cons x before ih => exact ih h.2

lemma Sheltered.insert (h : Sheltered (before ++ tower)) (htower : ∀ x ∈ tower, x.1 < depth)
    (hn : 0 < depth → ∃ x, tower.find? (·.1 < depth) = some x ∧ x.1 + 1 = depth ∧ x.2 ≤ first) :
    Sheltered (before ++ (depth, first) :: tower) := by
  induction before with
  | nil => exact ⟨hn, h⟩
  | cons x before ih =>
    refine ⟨fun hd => ?_, ih h.2⟩
    obtain ⟨y, hy, hdepth, hfirst⟩ := h.1 hd
    exact ⟨y, find?_insert Prod.fst hy hdepth htower, hdepth, hfirst⟩

lemma Sheltered.raise (h : Sheltered (before ++ (depth, first) :: later)) (hle : first ≤ raised)
    (hlast : ∀ x ∈ before.getLast?, x.1 ≤ depth) : Sheltered (before ++ (depth, raised) :: later) := by
  induction before with
  | nil => exact ⟨fun hd => (h.1 hd).imp fun x hx => ⟨hx.1, hx.2.1, hx.2.2.trans hle⟩, h.2⟩
  | cons y before ih =>
    have hrest : ∀ x ∈ before.getLast?, x.1 ≤ depth := by
      cases before with
      | nil => nofun
      | cons z before => rwa [List.getLast?_cons_cons] at hlast
    refine ⟨fun hd => ?_, ih h.2 hrest⟩
    obtain ⟨x, hx, hdepth, hfirst⟩ := h.1 hd
    refine ⟨x, ?_, hdepth, hfirst⟩
    change (before ++ (depth, first) :: later).find? (·.1 < y.1) = some x at hx
    change (before ++ (depth, raised) :: later).find? (·.1 < y.1) = some x
    rw [List.find?_append] at hx ⊢
    cases hbefore : before.find? (·.1 < y.1) with
    | some z => rwa [hbefore] at hx
    | none =>
      -- Nothing up to the event is less deep than `y`, the last one included; so the event is not either.
      have hlow : y.1 ≤ depth := by
        rcases before.eq_nil_or_concat' with rfl | ⟨init, z, rfl⟩
        · exact hlast y rfl
        · have hz := List.find?_eq_none.mp hbefore z (by simp)
          have hzd := hrest z (by simp)
          simp only [decide_eq_true_eq] at hz
          omega
      rw [hbefore, Option.none_or, List.find?_cons_of_neg (by simpa using hlow)] at hx
      rwa [Option.none_or, List.find?_cons_of_neg (by simpa using hlow)]

end Shelter

section Changes

variable {e : UsageEvent} {before after : Sample} {samples : List Sample} {time later : Nat}

lemma timely_keep (h : e.Timely time) (hle : time ≤ later) (hbefore : before.time = later)
    (hafter : after.time = later) (fold : Bool) :
    ({ e with samples := keep fold before after e.samples } : UsageEvent).Timely later := by
  rw [keep]
  split
  · have hpast : ∀ x ∈ e.samples.dropLast, x.time ≤ later := fun x hx =>
      (h.past x ((List.dropLast_sublist _).subset hx)).trans hle
    exact ⟨by simp, List.pairwise_append.mpr ⟨h.sorted.sublist (List.dropLast_sublist _),
      List.pairwise_singleton _ _, by simpa [hafter] using hpast⟩,
      List.forall_mem_append.mpr ⟨hpast, by simp [hafter]⟩⟩
  · have hadded := (h.addSample hle hbefore).addSample (Nat.le_refl later) hafter
    simpa [UsageEvent.addSample] using hadded

lemma le_length_keep (hsampled : samples ≠ []) (fold : Bool) :
    samples.length ≤ (keep fold before after samples).length := by
  have hpos := List.length_pos_iff.mpr hsampled
  rw [keep]
  split
  · rw [List.length_append, List.length_dropLast, List.length_singleton, Nat.sub_add_cancel hpos]
  · simp

lemma firstTime_keep (h : 1 < e.samples.length) (fold : Bool) :
    ({ e with samples := keep fold before after e.samples } : UsageEvent).firstTime = e.firstTime := by
  match hsamples : e.samples with
  | [] | [_] => simp [hsamples] at h
  | x :: y :: rest =>
    rw [keep]
    split <;> simp [firstTime, hsamples]

lemma le_firstTime_keep (h : e.Timely time) (hle : time ≤ after.time) (fold : Bool) :
    e.firstTime ≤ ({ e with samples := keep fold before after e.samples } : UsageEvent).firstTime := by
  by_cases hmany : 1 < e.samples.length
  · exact (firstTime_keep hmany fold).ge
  · have hpos := List.length_pos_iff.mpr h.sampled
    obtain ⟨x, hx⟩ := List.length_eq_one_iff.mp (le_antisymm (Nat.not_lt.mp hmany) hpos)
    have hpast := (h.past x (by simp [hx])).trans hle
    rw [keep]
    split
    · simpa [firstTime, hx] using hpast
    · simp [firstTime, hx]

end Changes

section Turns

lemma Turn.timely (h : Turn p c q) (hle : clock ≤ c.time?.getD clock)
    (hp : ∀ e ∈ p.events, e.Timely (clock - p.startedAt)) :
    ∀ e ∈ q.events, e.Timely (c.time?.getD clock - p.startedAt) := by
  have hmono : clock - p.startedAt ≤ c.time?.getD clock - p.startedAt := Nat.sub_le_sub_right hle _
  have hkept : ∀ e ∈ p.events, e.Timely (c.time?.getD clock - p.startedAt) := fun e he => (hp e he).mono hmono
  cases h with
  | idle => exact hkept
  | tuned => exact hkept
  | overflowed => exact hkept
  | missed => exact hkept
  | opened =>
    simp only [events, List.mem_append, List.mem_cons] at hkept ⊢
    rintro e (he | rfl | he)
    · exact hkept e (.inl he)
    · exact timely_single (p.sample _) _ _
    · exact hkept e (.inr he)
  | @changed now delta top rest _ _ hstack =>
    simp only [events, hstack, List.mem_append, List.mem_cons] at hp hkept ⊢
    rintro e (he | rfl | he)
    · exact hkept e (.inl he)
    · exact timely_keep (hp top (.inr (.inl rfl))) hmono rfl rfl _
    · exact hkept e (.inr (.inr he))
  | @closed now g e parent rest _ _ hstack =>
    simp only [events, hstack, List.mem_append, List.mem_cons, List.not_mem_nil, or_false] at hp hkept ⊢
    rintro x ((hx | rfl) | rfl | hx)
    · exact hkept x (.inl hx)
    · exact (hp e (.inr (.inl rfl))).addSample hmono rfl
    · exact (hp parent (.inr (.inr (.inl rfl)))).addSample hmono rfl
    · exact hkept x (.inr (.inr (.inr hx)))
  | @stopped now =>
    simp only [events, List.append_nil, List.mem_append, List.mem_map] at hp hkept ⊢
    rintro x (hx | ⟨e, he, rfl⟩)
    · exact hkept x (.inl hx)
    · exact (hp e (.inr he)).addSample hmono rfl

lemma Turn.ended (h : Turn p c q) (hle : clock ≤ c.time?.getD clock) (hp : Timed clock p) :
    q.completed.Pairwise fun e f => e.lastTime ≤ f.lastTime := by
  have hmono : clock - p.startedAt ≤ c.time?.getD clock - p.startedAt := Nat.sub_le_sub_right hle _
  have hpast : ∀ e ∈ p.completed, e.lastTime ≤ c.time?.getD clock - p.startedAt := fun e he =>
    (hp.timely e (List.mem_append_left _ he)).lastTime_le.trans hmono
  cases h with
  | closed =>
    refine List.pairwise_append.mpr ⟨hp.ended, List.pairwise_singleton _ _, fun e he f hf => ?_⟩
    rw [List.mem_singleton.mp hf, lastTime_addSample]
    exact hpast e he
  | stopped =>
    refine List.pairwise_append.mpr ⟨hp.ended, List.pairwise_map.mpr (List.pairwise_of_forall fun e f => ?_),
      fun e he f hf => ?_⟩
    · rw [lastTime_addSample, lastTime_addSample]
    · obtain ⟨x, _, rfl⟩ := List.mem_map.mp hf
      rw [lastTime_addSample]
      exact hpast e he
  | _ => exact hp.ended

lemma Timed.parent_depth (h : Timed clock p) (htracking : p.tracking = true) :
    ∀ e ∈ p.completed.getLast?, e.depth ≤ p.stack.length := by
  intro e he
  obtain ⟨init, hinit⟩ := List.getLast?_eq_some_iff.mp he
  rcases Nat.eq_zero_or_pos e.depth with hzero | hpos
  · exact hzero ▸ Nat.zero_le _
  · have hsheltered := h.sheltered
    rw [events, hinit, List.append_assoc, List.map_append] at hsheltered
    obtain ⟨x, hx, hdepth, _⟩ := hsheltered.split hpos
    obtain ⟨f, hf, rfl⟩ := List.mem_map.mp (List.mem_of_find?_eq_some hx)
    have hlow := (h.steady.tower htracking).depth_lt f.depth (List.mem_map_of_mem hf)
    change f.depth + 1 = e.depth at hdepth
    omega

lemma Turn.single (h : Turn p c q) (hp : Timed clock p) : ∀ top rest, q.stack = top :: rest →
    top.samples.length = 1 → ∀ e ∈ q.completed.getLast?, e.depth ≤ rest.length := by
  cases h with
  | opened htracking =>
    rintro _ _ ⟨⟩ _
    exact hp.parent_depth htracking
  | @changed now delta top rest htracking _ hstack =>
    rintro _ _ ⟨⟩ hone
    have hsampled := (hp.timely top (by simp [events, hstack])).sampled
    have hlen : top.samples.length ≤ 1 := (le_length_keep hsampled _).trans hone.le
    exact hp.single top rest hstack (hlen.antisymm (List.length_pos_iff.mpr hsampled))
  | @closed now g e parent rest _ _ hstack =>
    rintro _ _ ⟨⟩ hone
    have hsampled := (hp.timely parent (by simp [events, hstack])).sampled
    simp [UsageEvent.addSample, hsampled] at hone
  | stopped => rintro _ _ ⟨⟩
  | _ => exact hp.single

lemma outsets_eq (p : Profiler) :
    p.events.map outset = p.completed.map outset ++ p.stack.map outset := List.map_append

lemma Turn.sheltered (h : Turn p c q) (hle : clock ≤ c.time?.getD clock) (hp : Timed clock p) :
    Sheltered (q.events.map outset) := by
  have hmono : clock - p.startedAt ≤ c.time?.getD clock - p.startedAt := Nat.sub_le_sub_right hle _
  have hsheltered := hp.sheltered
  rw [outsets_eq] at hsheltered ⊢
  cases h with
  | opened htracking =>
    have htower := hp.steady.tower htracking
    rw [List.map_cons]
    refine hsheltered.insert (fun x hx => ?_) fun _ => ?_
    · obtain ⟨e, he, rfl⟩ := List.mem_map.mp hx
      exact htower.depth_lt e.depth (List.mem_map_of_mem he)
    · obtain ⟨parent, rest, hstack⟩ := List.exists_cons_of_ne_nil htower.ne_nil
      have hdepth : parent.depth = rest.length := (hstack ▸ htower).depth
      have hfirst := (hp.timely parent (by simp [events, hstack])).firstTime_le
      refine ⟨parent.outset, ?_, ?_, hfirst.trans hmono⟩
      · rw [hstack, List.map_cons, List.find?_cons_of_pos (by simp [outset, hdepth])]
      · rw [hstack, outset, hdepth, List.length_cons]
  | @changed now delta top rest htracking _ hstack =>
    rw [hstack, List.map_cons] at hsheltered
    rw [List.map_cons]
    have htop := hp.timely top (by simp [events, hstack])
    by_cases hone : top.samples.length = 1
    · have hdepth : top.depth = rest.length := (hstack ▸ hp.steady.tower htracking).depth
      refine hsheltered.raise (le_firstTime_keep htop hmono _) fun x hx => ?_
      rw [List.getLast?_map] at hx
      obtain ⟨e, he, rfl⟩ := Option.map_eq_some_iff.mp hx
      exact (hp.single top rest hstack hone e he).trans hdepth.ge
    · have hpos := List.length_pos_iff.mpr htop.sampled
      rw [outset, firstTime_keep (by omega)]
      exact hsheltered
  | @closed now g e parent rest _ _ hstack =>
    have he := (hp.timely e (by simp [events, hstack])).sampled
    have hparent := (hp.timely parent (by simp [events, hstack])).sampled
    rw [hstack] at hsheltered
    simpa [outset_addSample, he, hparent] using hsheltered
  | @stopped now htracking =>
    have hsame : p.stack.map (outset <| ·.addSample (p.sample now)) = p.stack.map outset :=
      List.map_congr_left fun e he => outset_addSample (hp.timely e (List.mem_append_right _ he)).sampled _
    rw [List.map_append, List.map_map, List.map_nil, List.append_nil]
    exact hsame ▸ hsheltered
  | _ => exact hsheltered

end Turns

section Runs

lemma Timed.turn (hp : Timed clock p) (h : Turn p c q) (hle : clock ≤ c.time?.getD clock) :
    Timed (c.time?.getD clock) q where
  steady := hp.steady.after_turn h
  timely := h.startedAt ▸ h.timely hle hp.timely
  ended := h.ended hle hp
  sheltered := h.sheltered hle hp
  single := h.single hp

lemma timed_started (p : Profiler) (start : Nat) : Timed start (p.started start) where
  steady := steady_started p start
  timely := by
    rintro e he
    obtain rfl := List.mem_singleton.mp he
    exact (timely_single ⟨0, 0⟩ _ _).mono (Nat.zero_le _)
  ended := .nil
  sheltered := ⟨nofun, trivial⟩
  single := nofun

lemma Chronological.cons (h : Chronological clock (c :: calls)) :
    clock ≤ c.time?.getD clock ∧ Chronological (c.time?.getD clock) calls := by
  rw [Chronological] at h
  cases htime : c.time? with
  | none =>
    rw [List.filterMap_cons_none htime] at h
    exact ⟨Nat.le_refl _, h⟩
  | some now =>
    rw [List.filterMap_cons_some htime] at h
    exact ⟨List.rel_of_pairwise_cons h List.mem_cons_self, h.of_cons⟩

lemma Timed.run (hp : Timed clock p) (hcalls : ∀ c ∈ calls, c.starts = false) (h : Chronological clock calls) :
    ∃ last, Timed last (p.run calls) := by
  induction calls generalizing p clock with
  | nil => exact ⟨clock, hp⟩
  | cons c calls ih =>
    obtain ⟨hc, hlater⟩ := List.forall_mem_cons.mp hcalls
    obtain ⟨hle, hchronological⟩ := h.cons
    exact ih (hp.turn (hp.steady.turn hc) hle) hlater hchronological

lemma Timed.parent {before later : List UsageEvent} {e : UsageEvent} (hp : Timed clock p)
    (hevents : p.events = before ++ e :: later) (he : 0 < e.depth) :
    ∃ f ∈ later, later.find? (·.depth + 1 = e.depth) = some f ∧ f.firstTime ≤ e.firstTime := by
  have hsheltered := hp.sheltered
  rw [hevents, List.map_append] at hsheltered
  obtain ⟨_, hx, hdepth, hfirst⟩ := hsheltered.split he
  rw [List.find?_map, Option.map_eq_some_iff] at hx
  obtain ⟨f, hf, rfl⟩ := hx
  obtain ⟨_, inner, rest, rfl, hinner⟩ := List.find?_eq_some_iff_append.mp hf
  change f.depth + 1 = e.depth at hdepth
  refine ⟨f, by simp, List.find?_eq_some_iff_append.mpr ⟨by simpa using hdepth, inner, rest, rfl, fun x hx => ?_⟩,
    hfirst⟩
  have hdeep : ¬x.depth < e.depth := of_decide_eq_false (Bool.not_eq_true' _ ▸ hinner x hx)
  simp only [Bool.not_eq_eq_eq_not, Bool.not_true, decide_eq_false_iff_not]
  omega

/-- In a session on such a clock samples are in order, whatever is folded and however the granularity changes,
and when the session is over every event but the root lies within the time of the event around it. -/
theorem spans_nested (p : Profiler) (hcalls : ∀ c ∈ calls, c.starts = false) (hclock : Chronological start calls) :
    (∀ e ∈ ((p.started start).run calls).stack ++ ((p.started start).run calls).completed,
      e.samples.Pairwise fun x y => x.time ≤ y.time) ∧
    ((∃ c ∈ calls, c.stops = true) → ∀ (before later : List UsageEvent) (e : UsageEvent),
      ((p.started start).run calls).completed = before ++ e :: later → 0 < e.depth →
        ∃ f s t u v, later.find? (·.depth + 1 = e.depth) = some f ∧ f.span? = some (s, t) ∧
          e.span? = some (u, v) ∧ s ≤ u ∧ v ≤ t) := by
  obtain ⟨last, htimed⟩ := (timed_started p start).run hcalls hclock
  refine ⟨fun e he => (htimed.timely e ?_).sorted, fun hstops before later e hcompleted he => ?_⟩
  · exact List.mem_append.mpr (List.mem_append.mp he).symm
  · have hevents : ((p.started start).run calls).events = before ++ e :: later := by
      rw [events, htimed.steady.idle (idle_of_stops (steady_started p start) hcalls hstops), List.append_nil, hcompleted]
    obtain ⟨f, hf, hfind, hfirst⟩ := htimed.parent hevents he
    have hended := htimed.ended
    rw [hcompleted, List.pairwise_append] at hended
    have hsampled : ∀ x ∈ before ++ e :: later, x.samples ≠ [] := fun x hx => (htimed.timely x (hevents ▸ hx)).sampled
    exact ⟨f, f.firstTime, f.lastTime, e.firstTime, e.lastTime, hfind, span?_eq (hsampled f (by simp [hf])),
      span?_eq (hsampled e (by simp)), hfirst, List.rel_of_pairwise_cons hended.2.1 hf⟩

def mixed : List Call :=
  [.openEvent 5 "outer", .record 6 10, .openEvent 7 "inner", .record 8 1, .record 9 2, .setGranularity 0,
    .close 10 ⟨some 1⟩, .record 11 (-3), .stop 12]

theorem spans_nested_mixed :
    (((idle 20 0).started 0).run mixed).completed.map (·.span?) = [some (9, 10), some (6, 12), some (0, 12)] ∧
      ∃ f s t u v, ((((idle 20 0).started 0).run mixed).completed.drop 1).find? (·.depth + 1 = 2) = some f ∧
        f.span? = some (s, t) ∧ some (9, 10) = some (u, v) ∧ s ≤ u ∧ v ≤ t := by
  have hclock : Chronological 0 mixed := by
    rw [Chronological]
    decide
  obtain ⟨_, hnested⟩ := spans_nested (idle 20 0) (by decide) hclock
  exact ⟨by decide, hnested (by decide) [] _ _ rfl (by decide)⟩

end Runs

end Profiler

end BitStore
