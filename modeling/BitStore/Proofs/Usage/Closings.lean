import BitStore.Proofs.Usage.Nesting
import BitStore.Proofs.Usage.Retention

namespace BitStore.Profiler

def Unfolded (p : Profiler) (calls : List Call) : Prop :=
  ∀ before now delta later, calls = before ++ .record now delta :: later → (p.run before).stack = p.stack →
    (p.run (before ++ [.record now delta])).stack ≠ p.stack → (p.run before).folds now = false

variable {p q : Profiler} {c : Call} {calls later : List Call} {guards : List EventGuard}
  {top e parent : UsageEvent} {rest : List UsageEvent}

lemma Unfolded.init (h : p.Unfolded (calls ++ [c])) : p.Unfolded calls := by
  rintro before now delta later rfl
  exact h before now delta (later ++ [c]) (by simp)

lemma Turn.settles (hturn : Turn p c q) (hp : p.Steady) (hstack : p.stack = top :: rest)
    (hfold : ∀ now delta, c = .record now delta → q.stack ≠ p.stack → p.folds now = false) :
    (q.stack = p.stack ∧ q.completed = p.completed) ∨ Retains p.completed top.name rest.length top.samples q := by
  by_cases hmoved : q.stack.length = p.stack.length
  · cases hturn with
    | idle => exact .inl ⟨rfl, rfl⟩
    | tuned => exact .inl ⟨rfl, rfl⟩
    | overflowed => exact .inl ⟨rfl, rfl⟩
    | missed => exact .inl ⟨rfl, rfl⟩
    | opened => simp at hmoved
    | closed _ _ hclosed => simp [hclosed] at hmoved
    | stopped => simp [hstack] at hmoved
    | @changed now delta x below _ _ hchanged =>
      obtain ⟨rfl, rfl⟩ := List.cons.inj (hchanged.symm.trans hstack)
      refine (Classical.em (_ = p.stack)).imp (fun hsame => ⟨hsame, rfl⟩) fun hsame => ?_
      refine .isOpen [] [] (by simp) rfl nofun rfl rfl ?_
      rw [hfold now delta rfl hsame, fixed, if_pos rfl]
      simp [keep, List.dropLast_append_of_ne_nil]
  · exact .inr (hturn.retains hp hstack hmoved)

lemma Unfolded.run (h : p.Unfolded calls) (hp : p.Steady) (hstack : p.stack = top :: rest)
    (hcalls : ∀ c ∈ calls, c.starts = false) :
    ((p.run calls).stack = p.stack ∧ (p.run calls).completed = p.completed) ∨
      Retains p.completed top.name rest.length top.samples (p.run calls) := by
  induction calls using List.reverseRecOn with
  | nil => exact .inl ⟨rfl, rfl⟩
  | append_singleton calls c ih =>
    obtain ⟨hcalls, hc⟩ := List.forall_mem_append.mp hcalls
    have hsteady := hp.run calls
    have hturn := hsteady.turn (hc c (List.mem_singleton_self c))
    have hafter : p.run (calls ++ [c]) = (p.run calls).after c := run_append p calls [c]
    rcases ih h.init hcalls with ⟨hsame, hdone⟩ | hretains
    · rw [hafter, ← hdone, ← hsame]
      refine hturn.settles hsteady (hsame.trans hstack) fun now delta hrecord hmoved => ?_
      subst hrecord
      refine h calls now delta [] rfl hsame ?_
      rwa [hafter, ← hsame]
    · rw [hafter]
      exact .inr (hretains.turn hsteady hturn)

/-- The parent of a closed event keeps the closing sample, unless the next thing sampled there is folded. The
parent is the next event to be completed that is less deep. -/
theorem closing_kept (h : Reached calls p guards) (hstack : p.stack = e :: parent :: rest) {g : EventGuard}
    (hg : g.session = some p.session) (now : Nat) (hlater : ∀ c ∈ later, c.starts = false)
    (hunfolded : (p.after (.close now g)).Unfolded later)
    (hover : (p.run (.close now g :: later)).tracking = false) :
    ∃ inner f outer, (p.run (.close now g :: later)).completed =
        p.completed ++ e.addSample (p.sample now) :: inner ++ f :: outer ∧
      (∀ x ∈ inner, e.depth ≤ x.depth) ∧ f.name = parent.name ∧ f.depth + 1 = e.depth ∧
      p.sample now ∈ f.samples := by
  have hsteady := h.kept.steady
  have hdepth : e.depth = rest.length + 1 :=
    Tower.depth (hstack ▸ hsteady.tower (hsteady.tracking_iff.mpr (by simp [hstack])))
  have hafter := after_close hsteady hg hstack now
  have hclosed : (p.after (.close now g)).stack = parent.addSample (p.sample now) :: rest := by rw [hafter]
  have hidle := ((hsteady.after _).run later).idle hover
  rcases hunfolded.run (hsteady.after _) hclosed hlater with ⟨hsame, _⟩ | hretains
  · rw [hclosed, hidle] at hsame
    cases hsame
  · obtain ⟨inner, f, outer, hcompleted, hinner, hname, hfdepth, hkept⟩ := hretains.found hidle
    refine ⟨inner, f, outer, ?_, fun x hx => hdepth ▸ hinner x hx, hname, hfdepth ▸ hdepth.symm, ?_⟩
    · rw [run_cons, hcompleted, hafter]
      simp
    · exact hkept.subset (List.mem_append_right _ (List.mem_singleton_self _))

theorem closing_replaced (h : Reached calls p guards) (hstack : p.stack = e :: parent :: rest) {g : EventGuard}
    (hg : g.session = some p.session) (now : Nat) {next : Nat} {delta : Int} (hfold : p.folds next = true)
    (hsum : Checked.addSigned p.usage delta = .ok (p.usage + delta)) :
    ((p.after (.close now g)).after (.record next delta)).stack =
      { parent with samples := parent.samples ++ [⟨next - p.startedAt, p.usage + delta⟩] } :: rest := by
  have hsteady := h.kept.steady
  have htracking : p.tracking = true := hsteady.tracking_iff.mpr (by simp [hstack])
  have hfolds : ({ p with
      stack := parent.addSample (p.sample now) :: rest,
      completed := p.completed ++ [e.addSample (p.sample now)] } : Profiler).folds next = true := hfold
  rw [after_close hsteady hg hstack, after_record, recorded, if_pos htracking, hsum]
  simp only [hfolds]
  simp [Except.toOption, pure, Except.pure, bind, Except.bind, keep, UsageEvent.addSample, sample]

def folded : List Call := [.start 0, .openEvent 0 "inner", .record 4 100]

lemma folded_reached : Reached folded ((idle 1000 0).run folded) [⟨some 1⟩] :=
  (((Reached.idle 1000 0).call (.start 0) nofun).call (.openEvent 0 "inner") nofun).call (.record 4 100) nofun

theorem closing_kept_folded : ∃ f ∈ ((idle 1000 0).run
    (folded ++ [.close 5 ⟨some 1⟩, .record 2000 (-100), .record 2001 7, .stop 2002])).completed,
    f.name = rootEvent ∧ ⟨5, 100⟩ ∈ f.samples := by
  have hunfolded : (((idle 1000 0).run folded).after (.close 5 ⟨some 1⟩)).Unfolded
      [.record 2000 (-100), .record 2001 7, .stop 2002] := by
    rintro before now delta later hcalls hsame -
    match before with
    | [] =>
      cases hcalls
      rfl
    | [_] =>
      cases hcalls
      exact absurd hsame (by decide)
    | [_, _] => cases hcalls
    | _ :: _ :: _ :: _ => simp at hcalls
  have hstack : ((idle 1000 0).run folded).stack = [⟨"inner", 1, [⟨4, 100⟩]⟩, ⟨rootEvent, 0, [⟨0, 0⟩]⟩] := by decide
  have hguard : (⟨some 1⟩ : EventGuard).session = some ((idle 1000 0).run folded).session := by decide
  obtain ⟨inner, f, outer, hcompleted, _, hname, _, hkept⟩ :=
    closing_kept folded_reached hstack hguard 5 (by decide) hunfolded (by decide)
  rw [run_append, hcompleted]
  exact ⟨f, by simp, hname, hkept⟩

/-- A change soon after the end of an event takes the place of the closing sample: the root goes from nothing
to nothing, though the event within it ended with 100. -/
theorem closing_lost : ((idle 1000 0).run
    (folded ++ [.close 5 ⟨some 1⟩, .record 6 (-100), .stop 6])).completed =
      [⟨"inner", 1, [⟨4, 100⟩, ⟨5, 100⟩]⟩, ⟨rootEvent, 0, [⟨0, 0⟩, ⟨6, 0⟩, ⟨6, 0⟩]⟩] := by
  decide

end BitStore.Profiler
