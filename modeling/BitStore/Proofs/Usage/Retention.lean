import BitStore.Proofs.Usage.Calls

namespace BitStore.Profiler

def fixed (above : List UsageEvent) (e : UsageEvent) : List Sample :=
  if above = [] then e.samples.dropLast else e.samples

/-- An event of the name and the depth given, whose first samples are `kept` for good. It is open, or it was
completed after the events `done` as the first one that is no deeper. -/
inductive Retains (done : List UsageEvent) (name : String) (depth : Nat) (kept : List Sample) (p : Profiler) : Prop
  | isOpen (inner above : List UsageEvent) {below : List UsageEvent} {e : UsageEvent} : p.completed = done ++ inner →
      p.stack = above ++ e :: below → (∀ x ∈ inner, depth < x.depth) → e.name = name → below.length = depth →
      kept <+: fixed above e → Retains done name depth kept p
  | completed (inner : List UsageEvent) (e : UsageEvent) (later : List UsageEvent) :
      p.completed = done ++ inner ++ e :: later → (∀ x ∈ inner, depth < x.depth) → e.name = name →
      e.depth = depth → kept <+: e.samples → Retains done name depth kept p

variable {p q : Profiler} {c : Call} {calls : List Call} {done : List UsageEvent} {name : String} {depth : Nat}
  {kept : List Sample}

lemma Tower.split {above below : List UsageEvent} {e : UsageEvent} (h : Tower (above ++ e :: below)) :
    e.depth = below.length ∧ ∀ x ∈ above, below.length < x.depth := by
  induction above with
  | nil => exact ⟨h.depth, nofun⟩
  | cons x above ih =>
    have htail : Tower (above ++ e :: below) := by
      cases above with
      | nil => exact h.tail
      | cons y above => exact h.tail
    obtain ⟨hdepth, habove⟩ := ih htail
    refine ⟨hdepth, List.forall_mem_cons.mpr ⟨?_, habove⟩⟩
    have hx : x.depth = (above ++ e :: below).length := Tower.depth h
    rw [hx, List.length_append, List.length_cons]
    omega

lemma dropLast_keep (fold : Bool) (before after : Sample) (samples : List Sample) :
    samples.dropLast <+: (keep fold before after samples).dropLast := by
  rw [keep]
  split
  · exact ⟨[], by rw [List.dropLast_concat, List.append_nil]⟩
  · rw [List.dropLast_append_of_ne_nil (List.cons_ne_nil _ _)]
    exact (List.dropLast_prefix _).trans (List.prefix_append _ _)

lemma fixed_prefix_samples (above : List UsageEvent) (e : UsageEvent) : fixed above e <+: e.samples := by
  rw [fixed]
  split
  · exact List.dropLast_prefix _
  · exact List.prefix_rfl

lemma prefix_addSample (e : UsageEvent) (s : Sample) : e.samples <+: (e.addSample s).samples := List.prefix_append _ _

lemma Turn.completed (h : Turn p c q) : p.completed <+: q.completed := by
  cases h with
  | closed => exact List.prefix_append _ _
  | stopped => exact List.prefix_append _ _
  | _ => exact List.prefix_rfl

section Open

variable {inner above below : List UsageEvent} {e : UsageEvent}

lemma Retains.of_closed {s : Sample} {x parent : UsageEvent} {rest : List UsageEvent} (hp : Tower p.stack)
    (hclosed : p.stack = x :: parent :: rest) (hdone : p.completed = done ++ inner)
    (hopen : p.stack = above ++ e :: below) (hinner : ∀ x ∈ inner, below.length < x.depth)
    (hkept : kept <+: fixed above e) : Retains done e.name below.length kept
      { p with stack := parent.addSample s :: rest, completed := p.completed ++ [x.addSample s] } := by
  obtain ⟨hdepth, habove⟩ := (hopen ▸ hp).split
  rw [hclosed] at hopen
  match above with
  | [] =>
    obtain ⟨rfl, rfl⟩ := List.cons.inj hopen
    refine .completed inner (x.addSample s) [] (by simp [hdone]) hinner rfl hdepth ?_
    exact (hkept.trans (fixed_prefix_samples _ _)).trans (prefix_addSample _ _)
  | [y] =>
    obtain ⟨rfl, hrest⟩ := List.cons.inj hopen
    obtain ⟨rfl, rfl⟩ := List.cons.inj hrest
    refine .isOpen (inner ++ [x.addSample s]) [] (by simp [hdone]) rfl ?_ rfl rfl ?_
    · exact List.forall_mem_append.mpr ⟨hinner, List.forall_mem_singleton.mpr (habove x (by simp))⟩
    · simpa [fixed, UsageEvent.addSample] using hkept
  | y :: z :: above =>
    obtain ⟨rfl, hrest⟩ := List.cons.inj hopen
    obtain ⟨rfl, rfl⟩ := List.cons.inj hrest
    refine .isOpen (inner ++ [x.addSample s]) (parent.addSample s :: above) (by simp [hdone]) rfl
      ?_ rfl rfl ?_
    · exact List.forall_mem_append.mpr ⟨hinner, List.forall_mem_singleton.mpr (habove x (by simp))⟩
    · simpa [fixed] using hkept

lemma Retains.of_stopped {s : Sample} (hp : Tower p.stack) (hdone : p.completed = done ++ inner)
    (hopen : p.stack = above ++ e :: below) (hinner : ∀ x ∈ inner, below.length < x.depth)
    (hkept : kept <+: fixed above e) : Retains done e.name below.length kept
      { p with tracking := false, stack := [], completed := p.completed ++ p.stack.map (·.addSample s) } := by
  obtain ⟨hdepth, habove⟩ := (hopen ▸ hp).split
  refine .completed (inner ++ above.map (·.addSample s)) (e.addSample s) (below.map (·.addSample s))
    (by simp [hdone, hopen]) ?_ rfl hdepth ?_
  · exact List.forall_mem_append.mpr ⟨hinner, List.forall_mem_map.mpr habove⟩
  · exact (hkept.trans (fixed_prefix_samples _ _)).trans (prefix_addSample e s)

lemma Retains.of_changed {samples : List Sample} {top : UsageEvent} {rest : List UsageEvent}
    (hsamples : top.samples.dropLast <+: samples.dropLast) (hstack : p.stack = top :: rest)
    (hdone : q.completed = done ++ inner) (hopen : p.stack = above ++ e :: below)
    (hinner : ∀ x ∈ inner, below.length < x.depth) (hkept : kept <+: fixed above e)
    (hq : q.stack = { top with samples := samples } :: rest) : Retains done e.name below.length kept q := by
  rw [hstack] at hopen
  cases above with
  | nil =>
    obtain ⟨rfl, rfl⟩ := List.cons.inj hopen
    exact .isOpen inner [] hdone hq hinner rfl rfl (hkept.trans hsamples)
  | cons y above =>
    obtain ⟨rfl, rfl⟩ := List.cons.inj hopen
    exact .isOpen inner (_ :: above) hdone hq hinner rfl rfl (by simpa [fixed] using hkept)

end Open

theorem Retains.turn (h : Retains done name depth kept p) (hp : p.Steady) (hturn : Turn p c q) :
    Retains done name depth kept q := by
  cases h with
  | completed inner e later hdone hinner hname hdepth hkept =>
    obtain ⟨more, hmore⟩ := hturn.completed
    exact .completed inner e (later ++ more) (by simp [← hmore, hdone]) hinner hname hdepth hkept
  | isOpen inner above hdone hopen hinner hname hdepth hkept =>
    subst hname hdepth
    cases hturn with
    | idle => exact .isOpen inner above hdone hopen hinner rfl rfl hkept
    | tuned => exact .isOpen inner above hdone hopen hinner rfl rfl hkept
    | overflowed => exact .isOpen inner above hdone hopen hinner rfl rfl hkept
    | missed => exact .isOpen inner above hdone hopen hinner rfl rfl hkept
    | closed htracking _ hstack => exact .of_closed (hp.tower htracking) hstack hdone hopen hinner hkept
    | stopped htracking => exact .of_stopped (hp.tower htracking) hdone hopen hinner hkept
    | changed _ _ hstack => exact .of_changed (dropLast_keep _ _ _ _) hstack hdone hopen hinner hkept rfl
    | opened =>
      refine .isOpen inner (_ :: above) hdone (congrArg (_ :: ·) hopen) hinner rfl rfl ?_
      rw [fixed, if_neg (List.cons_ne_nil _ _)]
      exact hkept.trans (fixed_prefix_samples _ _)

theorem Turn.retains (hturn : Turn p c q) (hp : p.Steady) {top : UsageEvent} {rest : List UsageEvent}
    (hstack : p.stack = top :: rest) (hmoved : q.stack.length ≠ p.stack.length) :
    Retains p.completed top.name rest.length top.samples q := by
  have hdepth (htracking : p.tracking = true) : top.depth = rest.length := Tower.depth (hstack ▸ hp.tower htracking)
  cases hturn with
  | idle => exact absurd rfl hmoved
  | tuned => exact absurd rfl hmoved
  | overflowed => exact absurd rfl hmoved
  | missed => exact absurd rfl hmoved
  | changed _ _ hchanged => exact absurd (by simp [hchanged]) hmoved
  | opened => exact .isOpen [] [_] (by simp) (congrArg (_ :: ·) hstack) nofun rfl rfl List.prefix_rfl
  | @closed now g e parent below htracking _ hclosed =>
    obtain ⟨rfl, rfl⟩ := List.cons.inj (hclosed.symm.trans hstack)
    exact .completed [] (e.addSample (p.sample now)) [] (by simp) nofun rfl (hdepth htracking) (prefix_addSample _ _)
  | @stopped now htracking =>
    exact .completed [] (top.addSample (p.sample now)) (rest.map (·.addSample (p.sample now))) (by simp [hstack]) nofun
      rfl (hdepth htracking) (prefix_addSample _ _)

theorem Retains.run (h : Retains done name depth kept p) (hp : p.Steady) (hcalls : ∀ c ∈ calls, c.starts = false) :
    Retains done name depth kept (p.run calls) := by
  induction calls generalizing p with
  | nil => exact h
  | cons c calls ih =>
    obtain ⟨hc, hcalls⟩ := List.forall_mem_cons.mp hcalls
    exact ih (h.turn hp (hp.turn hc)) (hp.after c) hcalls

lemma Retains.found (h : Retains done name depth kept p) (hp : p.stack = []) : ∃ inner e later,
    p.completed = done ++ inner ++ e :: later ∧ (∀ x ∈ inner, depth < x.depth) ∧ e.name = name ∧ e.depth = depth ∧
      kept <+: e.samples := by
  cases h with
  | isOpen _ _ _ hopen => simp [hp] at hopen
  | completed _ _ _ hdone hinner hname hdepth hkept => exact ⟨_, _, _, hdone, hinner, hname, hdepth, hkept⟩

end BitStore.Profiler
