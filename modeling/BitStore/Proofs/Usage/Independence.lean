import BitStore.Proofs.Usage.Nesting

namespace BitStore.Profiler

/-- What a program does with a profiler that it has started; an event is closed by the guard that was handed out
as the `i`-th since then. -/
inductive Move (τ : Type) where
  | record (time : τ) (delta : Int)
  | openEvent (time : τ) (name : String)
  | close (time : τ) (i : Nat)
  | setGranularity (granularity : Nat)
  | stop (time : τ)

namespace Move

def map {τ υ : Type} (f : τ → υ) : Move τ → Move υ
  | record time delta => record (f time) delta
  | openEvent time name => openEvent (f time) name
  | close time i => close (f time) i
  | setGranularity granularity => setGranularity granularity
  | stop time => stop (f time)

def since (start : Nat) (m : Move Nat) : Move Int := m.map fun now : Nat => (now : Int) - start

end Move

inductive Step where
  | move (m : Move Nat)
  | aside (c : Call)

def moves (steps : List Step) : List (Move Nat) :=
  steps.filterMap fun
    | .move m => some m
    | .aside _ => none

structure View where
  completed : List UsageEvent
  report : UsageReport
  peak : Int
  usage : Int
  tracking : Bool

def view (p : Profiler) : View := ⟨p.completed, p.report, p.peak, p.usage, p.tracking⟩

/-- A call that is none of the session's business: it drops one of the guards `held` at the start, or it is made
while the profiler is idle. -/
inductive Beside (held : List EventGuard) (p : Profiler) : Call → Prop
  | stray {now : Nat} {g : EventGuard} : g ∈ held → Beside held p (.close now g)
  | idle {c : Call} : p.tracking = false → c.starts = false → c.time?.isSome → Beside held p c

structure Session where
  profiler : Profiler
  opened : List EventGuard

namespace Session

def begun (p : Profiler) (now : Nat) : Session := ⟨p.after (.start now), []⟩

def call (s : Session) (c : Call) : Session := { s with profiler := s.profiler.after c }

def make (s : Session) : Move Nat → Session
  | .record now delta => s.call (.record now delta)
  | .openEvent now name =>
    { s.call (.openEvent now name) with opened := s.opened ++ [(s.profiler.opened now name).1] }
  | .close now i => s.opened[i]?.elim s fun g => s.call (.close now g)
  | .setGranularity granularity => s.call (.setGranularity granularity)
  | .stop now => s.call (.stop now)

def step (s : Session) : Step → Session
  | .move m => s.make m
  | .aside c => s.call c

def run (s : Session) (steps : List Step) : Session := steps.foldl step s

def Permits (held : List EventGuard) : Session → List Step → Prop
  | _, [] => True
  | s, .move m :: rest => Permits held (s.make m) rest
  | s, .aside c :: rest => Beside held s.profiler c ∧ Permits held (s.call c) rest

end Session

variable {p q : Profiler} {c : Call} {held : List EventGuard}

section Shifting

def shift (d : Nat) (p : Profiler) : Profiler :=
  { p with startedAt := p.startedAt + d, lastKept := p.lastKept + d, session := 1 }

def shiftGuard (p : Profiler) (g : EventGuard) : EventGuard :=
  ⟨if g.session = some p.session then some 1 else none⟩

lemma shiftGuard_congr (h : q.session = p.session) : q.shiftGuard = p.shiftGuard := by
  funext g
  rw [shiftGuard, shiftGuard, h]

lemma sample_shift (d : Nat) (p : Profiler) (now : Nat) : (p.shift d).sample (now + d) = p.sample now := by
  rw [sample, sample]
  exact congrArg (Sample.mk · p.usage) (Nat.add_sub_add_right now d p.startedAt)

lemma folds_shift (d : Nat) (p : Profiler) (now : Nat) : (p.shift d).folds (now + d) = p.folds now := by
  rw [folds, folds]
  exact congrArg (fun n => decide (n < p.granularity)) (Nat.add_sub_add_right now d p.lastKept)

lemma record_shift (d : Nat) (p : Profiler) (now : Nat) (delta : Int) :
    (p.shift d).after (.record (now + d) delta) = (p.after (.record now delta)).shift d := by
  rw [after_record, after_record, recorded, recorded, sample_shift, folds_shift]
  change (if p.tracking = true then _ else _ : Except Fault Profiler).toOption.getD _ = _
  by_cases htracking : p.tracking = true
  · rw [if_pos htracking, if_pos htracking]
    change (Checked.addSigned p.usage delta >>= _).toOption.getD _ = _
    cases Checked.addSigned p.usage delta with
    | error f => rfl
    | ok usage => cases hfold : p.folds now <;> rfl
  · rw [if_neg htracking, if_neg htracking]
    rfl

lemma open_shift (d : Nat) (p : Profiler) (now : Nat) (name : String) :
    (p.shift d).after (.openEvent (now + d) name) = (p.after (.openEvent now name)).shift d ∧
      ((p.shift d).opened (now + d) name).1 = p.shiftGuard (p.opened now name).1 := by
  change ((p.shift d).opened (now + d) name).2 = (p.opened now name).2.shift d ∧ _
  rw [opened, opened, sample_shift, shiftGuard]
  by_cases htracking : p.tracking = true
  · rw [if_pos htracking, if_pos (show (p.shift d).tracking = true from htracking), if_pos rfl]
    exact ⟨rfl, rfl⟩
  · rw [if_neg htracking, if_neg (show ¬(p.shift d).tracking = true from htracking), if_neg (Option.some_ne_none p.session).symm]
    exact ⟨rfl, rfl⟩

lemma close_shift (d : Nat) (p : Profiler) (now : Nat) (g : EventGuard) :
    (p.shift d).after (.close (now + d) (p.shiftGuard g)) = (p.after (.close now g)).shift d := by
  change (p.shift d).closed (now + d) (p.shiftGuard g) = (p.closed now g).shift d
  have hown : (p.shiftGuard g).session = some (p.shift d).session ↔ g.session = some p.session := by
    rw [shiftGuard]
    split <;> simp [shift, *]
  rw [closed, closed, sample_shift]
  simp only [hown]
  by_cases hg : (p.tracking && decide (g.session = some p.session)) = true
  · rw [if_pos hg, if_pos (show ((p.shift d).tracking && _) = true from hg), show (p.shift d).stack = p.stack from rfl]
    rcases p.stack with _ | ⟨e, _ | ⟨parent, rest⟩⟩ <;> rfl
  · rw [if_neg hg, if_neg (show ¬((p.shift d).tracking && _) = true from hg)]

lemma stop_shift (d : Nat) (p : Profiler) (now : Nat) :
    (p.shift d).after (.stop (now + d)) = (p.after (.stop now)).shift d := by
  rw [after_stop, after_stop, stopped, stopped, sample_shift]
  change (if p.tracking = true then _ else _) = _
  split <;> rfl

end Shifting

section Asides

lemma Beside.unchanged (h : Beside held p c) (hheld : ∀ g ∈ held, g.session ≠ some p.session) : p.after c = p := by
  cases h with
  | @stray now g hg =>
    change p.closed now g = p
    rw [closed, if_neg (by simp [hheld g hg])]
  | idle htracking hstarts htime =>
    have hidle : ¬p.tracking = true := by simp [htracking]
    cases c with
    | start now => cases hstarts
    | setGranularity granularity => cases htime
    | stop now => rw [after_stop, stopped, if_neg hidle]
    | record now delta =>
      rw [after_record, recorded, if_neg hidle]
      rfl
    | openEvent now name =>
      change (p.opened now name).2 = p
      rw [opened, if_neg hidle]
    | close now g =>
      change p.closed now g = p
      rw [closed, if_neg (by simp [htracking])]

end Asides

namespace Session

variable {s : Session} {steps : List Step}

structure Sealed (held : List EventGuard) (s : Session) : Prop where
  steady : s.profiler.Steady
  strays : ∀ g ∈ held, g.session ≠ some s.profiler.session

def shift (d : Nat) (s : Session) : Session := ⟨s.profiler.shift d, s.opened.map s.profiler.shiftGuard⟩

lemma sealed_begun {calls : List Call} (h : Reached calls p held) (now : Nat) : (begun p now).Sealed held where
  steady := steady_started p now
  strays g hg hsession := by
    have hle := h.kept.sessions g hg (p.session + 1) hsession
    omega

lemma begun_shift (d : Nat) (p : Profiler) (now : Nat) :
    (begun p now).shift d = ⟨(idle p.granularity (now + d)).started (now + d), []⟩ := rfl

lemma Sealed.session (hs : s.Sealed held) (hc : c.starts = false) :
    (s.profiler.after c).session = s.profiler.session := (hs.steady.turn hc).session

lemma Sealed.call (hs : s.Sealed held) (hc : c.starts = false) : (s.call c).Sealed held where
  steady := hs.steady.after c
  strays g hg := hs.session hc ▸ hs.strays g hg

lemma Sealed.make (hs : s.Sealed held) (m : Move Nat) : (s.make m).Sealed held := by
  cases m with
  | openEvent now name =>
    have hcall := hs.call (c := .openEvent now name) rfl
    exact ⟨hcall.steady, hcall.strays⟩
  | close now i =>
    rw [Session.make]
    cases s.opened[i]? with
    | none => exact hs
    | some g => exact hs.call rfl
  | _ => exact hs.call rfl

lemma Sealed.call_shift (hs : s.Sealed held) (hc : c.starts = false) (d : Nat) :
    (s.call c).shift d = { s.shift d with profiler := (s.profiler.after c).shift d } := by
  rw [shift, shift, Session.call, shiftGuard_congr (hs.session hc)]

lemma Sealed.make_shift (hs : s.Sealed held) (m : Move Nat) (d : Nat) :
    (s.make m).shift d = (s.shift d).make (m.map (· + d)) := by
  cases m with
  | record now delta =>
    rw [Session.make, hs.call_shift rfl, ← record_shift]
    rfl
  | openEvent now name =>
    obtain ⟨hafter, hguard⟩ := open_shift d s.profiler now name
    rw [Session.make, shift, Session.call, List.map_append, List.map_singleton, shiftGuard_congr (hs.session rfl),
      ← hguard, ← hafter]
    rfl
  | close now i =>
    rw [Session.make, Move.map, Session.make, shift, shift, List.getElem?_map]
    cases s.opened[i]? with
    | none => rfl
    | some g =>
      change (s.call _).shift d = _
      rw [hs.call_shift rfl, ← close_shift]
      rfl
  | setGranularity granularity =>
    rw [Session.make, hs.call_shift rfl]
    rfl
  | stop now =>
    rw [Session.make, hs.call_shift rfl, ← stop_shift]
    rfl

lemma Sealed.run_shift (hs : s.Sealed held) (hsteps : s.Permits held steps) (d : Nat) :
    (s.run steps).shift d = ((moves steps).map (Move.map (· + d))).foldl Session.make (s.shift d) := by
  induction steps generalizing s with
  | nil => rfl
  | cons x rest ih =>
    cases x with
    | move m =>
      change ((s.make m).run rest).shift d = ((moves rest).map _).foldl Session.make ((s.shift d).make _)
      rw [← hs.make_shift]
      exact ih (hs.make m) hsteps
    | aside c =>
      obtain ⟨hbeside, hrest⟩ := hsteps
      have hcall : s.call c = s := by rw [Session.call, hbeside.unchanged hs.strays]
      rw [hcall] at hrest
      change ((s.call c).run rest).shift d = ((moves rest).map _).foldl Session.make (s.shift d)
      rw [hcall]
      exact ih hs hrest

end Session

lemma map_since (start d : Nat) (l : List (Move Nat)) :
    (l.map (Move.since start)).map (Move.map fun elapsed : Int => (elapsed + (start + d : Nat)).toNat) =
      l.map (Move.map (· + d)) := by
  have htime (now : Nat) : ((now : Int) - start + (start + d : Nat)).toNat = now + d := by omega
  rw [List.map_map]
  refine List.map_congr_left fun m _ => ?_
  cases m <;> simp only [Function.comp_apply, Move.since, Move.map, htime]

open Session

/-- Sessions that begin at the same granularity show the same after the same moves at the same times since their
start, whatever was called before they began and whatever others call in between. -/
theorem sessions_independent {calls₁ calls₂ : List Call} {p₁ p₂ : Profiler} {held₁ held₂ : List EventGuard}
    (h₁ : Reached calls₁ p₁ held₁) (h₂ : Reached calls₂ p₂ held₂) (hgranularity : p₁.granularity = p₂.granularity)
    (now₁ now₂ : Nat) {steps₁ steps₂ : List Step} (hsteps₁ : (begun p₁ now₁).Permits held₁ steps₁)
    (hsteps₂ : (begun p₂ now₂).Permits held₂ steps₂)
    (hmoves : (moves steps₁).map (Move.since now₁) = (moves steps₂).map (Move.since now₂)) :
    ((begun p₁ now₁).run steps₁).profiler.view = ((begun p₂ now₂).run steps₂).profiler.view := by
  have hbegun : (begun p₁ now₁).shift now₂ = (begun p₂ now₂).shift now₁ := by
    rw [begun_shift, begun_shift, hgranularity, Nat.add_comm]
  -- On a clock that is ahead of both, the moves are made at the same times.
  have hshifted : (moves steps₁).map (Move.map (· + now₂)) = (moves steps₂).map (Move.map (· + now₁)) := by
    rw [← map_since now₁, ← map_since now₂, hmoves, Nat.add_comm]
  have hshift : ((begun p₁ now₁).run steps₁).shift now₂ = ((begun p₂ now₂).run steps₂).shift now₁ := by
    rw [(sealed_begun h₁ now₁).run_shift hsteps₁, (sealed_begun h₂ now₂).run_shift hsteps₂, hbegun, hshifted]
  exact congrArg (fun s => s.profiler.view) hshift

def littered : List Call := [.openEvent 0 "early", .start 1, .openEvent 2 "old", .record 3 100]

lemma littered_reached : Reached littered ((idle 20 0).run littered) [⟨some 1⟩, ⟨none⟩] := by
  have h := (Reached.idle 20 0).call (.openEvent 0 "early") nofun
  have h := h.call (.start 1) nofun
  have h := h.call (.openEvent 2 "old") nofun
  exact h.call (.record 3 100) nofun

theorem sessions_independent_littered :
    ((begun ((idle 20 0).run littered) 50).run [.move (.openEvent 50 "work"), .aside (.close 60 ⟨some 1⟩),
        .move (.record 80 10), .aside (.close 90 ⟨none⟩), .move (.close 100 0), .move (.stop 110),
        .aside (.record 120 7), .aside (.openEvent 130 "late"), .aside (.close 140 ⟨some 2⟩)]).profiler.view =
      ((begun (idle 20 0) 1000).run [.move (.openEvent 1000 "work"), .move (.record 1030 10), .move (.close 1050 0),
        .move (.stop 1060)]).profiler.view := by
  refine sessions_independent littered_reached (.idle 20 0) rfl 50 1000 ?_ trivial rfl
  exact ⟨.stray (by decide), .stray (by decide), .idle rfl rfl rfl, .idle rfl rfl rfl, .idle rfl rfl rfl, trivial⟩

end BitStore.Profiler
