import BitStore.Usage.Profiler
import Mathlib.Tactic.Lemma

/-! What a call may come to is said once (`Turn`); between two starts the open events stand on the root (`Tower`). -/

namespace BitStore.Profiler

inductive Call where
  | start (now : Nat)
  | stop (now : Nat)
  | record (now : Nat) (delta : Int)
  | openEvent (now : Nat) (name : String)
  | close (now : Nat) (g : EventGuard)
  | setGranularity (granularity : Nat)
  deriving DecidableEq

namespace Call

def time? : Call → Option Nat
  | start now | stop now | record now _ | openEvent now _ | close now _ => some now
  | setGranularity _ => none

def name? : Call → Option String
  | openEvent _ name => some name
  | _ => none

def starts : Call → Bool
  | start _ => true
  | _ => false

def stops : Call → Bool
  | stop _ => true
  | _ => false

end Call

def after (p : Profiler) : Call → Profiler
  | .start now => ((start now).run p).state
  | .stop now => ((stop now).run p).state
  | .record now delta => ((record now delta).run p).state
  | .openEvent now name => ((openEvent now name).run p).state
  | .close now g => ((close now g).run p).state
  | .setGranularity granularity => ((setGranularity granularity).run p).state

def run (p : Profiler) (calls : List Call) : Profiler := calls.foldl after p

inductive Turn (p : Profiler) : Call → Profiler → Prop
  | idle {c : Call} (granularity : Nat) : p.tracking = false → Turn p c { p with granularity := granularity }
  | tuned (granularity : Nat) : Turn p (.setGranularity granularity) { p with granularity := granularity }
  | overflowed {now : Nat} {delta : Int} : Checked.addSigned p.usage delta = .error .addOverflow →
      Turn p (.record now delta) p
  | changed {now : Nat} {delta : Int} {top : UsageEvent} {rest : List UsageEvent} : p.tracking = true →
      Checked.addSigned p.usage delta = .ok (p.usage + delta) → p.stack = top :: rest →
      Turn p (.record now delta) { p with
        usage := p.usage + delta,
        lastKept := if p.folds now then p.lastKept else now,
        stack := { top with
          samples := keep (p.folds now) (p.sample now) ⟨now - p.startedAt, p.usage + delta⟩ top.samples } :: rest }
  | opened {now : Nat} {name : String} : p.tracking = true →
      Turn p (.openEvent now name) { p with stack := ⟨name, p.stack.length, [p.sample now]⟩ :: p.stack }
  | missed {now : Nat} {g : EventGuard} : (g.session = some p.session → p.stack.length ≤ 1) →
      Turn p (.close now g) p
  | closed {now : Nat} {g : EventGuard} {e parent : UsageEvent} {rest : List UsageEvent} : p.tracking = true →
      g.session = some p.session → p.stack = e :: parent :: rest →
      Turn p (.close now g) { p with
        stack := parent.addSample (p.sample now) :: rest,
        completed := p.completed ++ [e.addSample (p.sample now)] }
  | stopped {now : Nat} : p.tracking = true →
      Turn p (.stop now) { p with
        tracking := false,
        stack := [],
        completed := p.completed ++ p.stack.map (·.addSample (p.sample now)) }

def Tower : List UsageEvent → Prop
  | [] => False
  | [root] => root.name = rootEvent ∧ root.depth = 0
  | e :: parent :: rest => e.depth = rest.length + 1 ∧ Tower (parent :: rest)

structure Steady (p : Profiler) : Prop where
  idle : p.tracking = false → p.stack = []
  tower : p.tracking = true → Tower p.stack

variable {p q : Profiler} {c : Call} {calls : List Call} {now : Nat}

section Runs

@[simp] lemma run_append (p : Profiler) (before calls : List Call) :
    p.run (before ++ calls) = (p.run before).run calls := List.foldl_append

@[simp] lemma run_cons (p : Profiler) (c : Call) (calls : List Call) : p.run (c :: calls) = (p.after c).run calls := rfl

@[simp] lemma run_nil (p : Profiler) : p.run [] = p := rfl

end Runs

section Turns

lemma after_stop (p : Profiler) (now : Nat) : p.after (.stop now) = p.stopped now := by
  rw [after, stop, Action.run]
  cases htracking : p.tracking <;>
    simp [bind, Action.bind, Action.get, Action.set, Action.say, pure, Action.pure, htracking]

lemma after_record (p : Profiler) (now : Nat) (delta : Int) :
    p.after (.record now delta) = (p.recorded now delta).toOption.getD p := by
  rw [after, record, Action.run, Action.update]
  cases p.recorded now delta <;> rfl

lemma turn_idle (hp : ¬p.tracking = true) (c : Call) : Turn p c p := .idle p.granularity (Bool.eq_false_iff.mpr hp)

lemma turn_record (hp : p.Steady) (now : Nat) (delta : Int) :
    Turn p (.record now delta) (p.after (.record now delta)) := by
  rw [after_record, recorded]
  by_cases htracking : p.tracking = true
  · have htower := hp.tower htracking
    rw [if_pos htracking]
    cases hsum : Checked.addSigned p.usage delta with
    | error f =>
      obtain rfl : f = .addOverflow := by
        rw [Checked.addSigned] at hsum
        split at hsum <;> cases hsum
        rfl
      exact .overflowed hsum
    | ok usage =>
      obtain rfl := (Checked.addSigned_eq_ok_iff.mp hsum).1
      cases hstack : p.stack with
      | nil => exact (hstack ▸ htower).elim
      | cons top rest => exact .changed htracking hsum hstack
  · rw [if_neg htracking]
    exact turn_idle htracking _

lemma turn_close (p : Profiler) (now : Nat) (g : EventGuard) : Turn p (.close now g) (p.closed now g) := by
  rw [closed]
  by_cases hg : p.tracking = true ∧ g.session = some p.session
  · rw [if_pos (by simpa using hg)]
    split
    · next e parent rest hstack => exact .closed hg.1 hg.2 hstack
    · next hstack =>
      refine .missed fun _ => ?_
      match hp : p.stack with
      | [] => exact Nat.zero_le 1
      | [_] => exact Nat.le_refl 1
      | e :: parent :: rest => exact (hstack e parent rest hp).elim
  · rw [if_neg (by simpa using hg)]
    by_cases htracking : p.tracking = true
    · exact .missed fun h => absurd ⟨htracking, h⟩ hg
    · exact turn_idle htracking _

theorem Steady.turn (hp : p.Steady) (hc : c.starts = false) : Turn p c (p.after c) := by
  cases c with
  | start now => cases hc
  | stop now =>
    rw [after_stop, stopped]
    split
    · next htracking => exact .stopped htracking
    · next htracking => exact turn_idle htracking _
  | record now delta => exact turn_record hp now delta
  | openEvent now name =>
    change Turn p (.openEvent now name) (p.opened now name).2
    rw [opened]
    split
    · next htracking => exact .opened htracking
    · next htracking => exact turn_idle htracking _
  | close now g => exact turn_close p now g
  | setGranularity granularity => exact .tuned granularity

lemma Turn.of_idle (h : Turn p c q) (hp : p.tracking = false) :
    ∃ granularity, q = { p with granularity := granularity } := by
  cases h with
  | idle granularity => exact ⟨granularity, rfl⟩
  | tuned granularity => exact ⟨granularity, rfl⟩
  | overflowed => exact ⟨p.granularity, rfl⟩
  | missed => exact ⟨p.granularity, rfl⟩
  | changed htracking => exact absurd (htracking.symm.trans hp) nofun
  | opened htracking => exact absurd (htracking.symm.trans hp) nofun
  | closed htracking => exact absurd (htracking.symm.trans hp) nofun
  | stopped htracking => exact absurd (htracking.symm.trans hp) nofun

lemma Turn.tracking (h : Turn p c q) : q.tracking = true ↔ p.tracking = true ∧ c.stops = false := by
  cases h with
  | idle _ htracking => simp [htracking]
  | stopped => simp [Call.stops]
  | _ => simp [Call.stops]

end Turns

section Steadiness

lemma Tower.depth {e : UsageEvent} {rest : List UsageEvent} (h : Tower (e :: rest)) : e.depth = rest.length := by
  cases rest with
  | nil => exact h.2
  | cons parent rest => exact h.1

lemma Tower.tail {e parent : UsageEvent} {rest : List UsageEvent} (h : Tower (e :: parent :: rest)) :
    Tower (parent :: rest) := h.2

lemma Tower.resample {e : UsageEvent} {rest : List UsageEvent} (h : Tower (e :: rest)) (samples : List Sample) :
    Tower ({ e with samples := samples } :: rest) := by
  cases rest with
  | nil => exact h
  | cons parent rest => exact h

lemma Tower.push {stack : List UsageEvent} (h : Tower stack) (name : String) (samples : List Sample) :
    Tower (⟨name, stack.length, samples⟩ :: stack) := by
  cases stack with
  | nil => exact h.elim
  | cons parent rest => exact ⟨rfl, h⟩

lemma Tower.ne_nil {stack : List UsageEvent} (h : Tower stack) : stack ≠ [] := by
  rintro rfl
  exact h

lemma Steady.tracking_iff (hp : p.Steady) : p.tracking = true ↔ p.stack ≠ [] := by
  refine ⟨fun h => (hp.tower h).ne_nil, fun h => ?_⟩
  cases htracking : p.tracking with
  | true => rfl
  | false => exact absurd (hp.idle htracking) h

lemma after_close {g : EventGuard} {e parent : UsageEvent} {rest : List UsageEvent} (hp : p.Steady)
    (hg : g.session = some p.session) (hstack : p.stack = e :: parent :: rest) (now : Nat) :
    p.after (.close now g) = { p with
      stack := parent.addSample (p.sample now) :: rest,
      completed := p.completed ++ [e.addSample (p.sample now)] } := by
  have htracking : p.tracking = true := hp.tracking_iff.mpr (by simp [hstack])
  change p.closed now g = _
  rw [closed, if_pos (by simp [htracking, hg]), hstack]

lemma steady_idle (granularity now : Nat) : (idle granularity now).Steady := ⟨fun _ => rfl, nofun⟩

lemma steady_started (p : Profiler) (now : Nat) : (p.started now).Steady := ⟨nofun, fun _ => ⟨rfl, rfl⟩⟩

lemma Steady.after_turn (hp : p.Steady) (h : Turn p c q) : q.Steady := by
  cases h with
  | idle _ htracking => exact ⟨hp.idle, hp.tower⟩
  | tuned => exact ⟨hp.idle, hp.tower⟩
  | overflowed => exact hp
  | missed => exact hp
  | changed htracking _ hstack =>
    exact ⟨fun hidle => absurd (htracking.symm.trans hidle) nofun, fun _ => (hstack ▸ hp.tower htracking).resample _⟩
  | opened htracking =>
    exact ⟨fun hidle => absurd (htracking.symm.trans hidle) nofun, fun _ => (hp.tower htracking).push _ _⟩
  | closed htracking _ hstack =>
    exact ⟨fun hidle => absurd (htracking.symm.trans hidle) nofun,
      fun _ => (hstack ▸ hp.tower htracking).tail.resample _⟩
  | stopped => exact ⟨fun _ => rfl, nofun⟩

lemma Steady.after (hp : p.Steady) (c : Call) : (p.after c).Steady := by
  cases c with
  | start now => exact steady_started p now
  | _ => exact hp.after_turn (hp.turn rfl)

lemma Steady.run (hp : p.Steady) (calls : List Call) : (p.run calls).Steady := by
  induction calls generalizing p with
  | nil => exact hp
  | cons c calls ih => exact ih (hp.after c)

lemma idle_run (hp : p.Steady) (hidle : p.tracking = false) (hcalls : ∀ c ∈ calls, c.starts = false) :
    ∃ granularity, p.run calls = { p with granularity := granularity } := by
  induction calls generalizing p with
  | nil => exact ⟨p.granularity, rfl⟩
  | cons c calls ih =>
    obtain ⟨hc, hcalls⟩ := List.forall_mem_cons.mp hcalls
    obtain ⟨g, hg⟩ := (hp.turn hc).of_idle hidle
    have hsteady := hp.after c
    rw [run_cons, hg] at *
    exact ih hsteady hidle hcalls

lemma tracking_run (hp : p.Steady) (hcalls : ∀ c ∈ calls, c.starts = false) :
    (p.run calls).tracking = true ↔ p.tracking = true ∧ ∀ c ∈ calls, c.stops = false := by
  induction calls generalizing p with
  | nil => simp
  | cons c calls ih =>
    obtain ⟨hc, hcalls⟩ := List.forall_mem_cons.mp hcalls
    rw [run_cons, ih (hp.after c) hcalls, (hp.turn hc).tracking, List.forall_mem_cons, and_assoc]

lemma idle_of_stops (hp : p.Steady) (hcalls : ∀ c ∈ calls, c.starts = false)
    (hstops : ∃ c ∈ calls, c.stops = true) : (p.run calls).tracking = false := by
  obtain ⟨c, hc, hstop⟩ := hstops
  refine Bool.eq_false_iff.mpr fun htracking => ?_
  have hrunning := ((tracking_run hp hcalls).mp htracking).2 c hc
  cases hstop.symm.trans hrunning

end Steadiness

end BitStore.Profiler
