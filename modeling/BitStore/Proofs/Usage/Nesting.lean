import BitStore.Proofs.Usage.Calls
import Mathlib.Data.List.DropRight

/-! A guard knows its session but not its event; still there are as many guards of the session at hand as there are
events above the root. -/

namespace BitStore.Profiler

def sinceStart (calls : List Call) : List Call := calls.rtakeWhile fun c => !c.starts

def sessionNames (calls : List Call) : List String :=
  ((sinceStart calls).takeWhile fun c => !c.stops).filterMap Call.name?

def guardsAfter (p : Profiler) (guards : List EventGuard) : Call → List EventGuard
  | .openEvent now name => (p.opened now name).1 :: guards
  | .close _ g => guards.erase g
  | _ => guards

/-- A new profiler after a history of calls, with the guards that are still held. No guard closes twice. -/
inductive Reached : List Call → Profiler → List EventGuard → Prop
  | idle (granularity now : Nat) : Reached [] (.idle granularity now) []
  | call {calls : List Call} {p : Profiler} {guards : List EventGuard} (c : Call) : Reached calls p guards →
      (∀ now g, c = .close now g → g ∈ guards) → Reached (calls ++ [c]) (p.after c) (p.guardsAfter guards c)

/-- After each depth but 0 comes one that is less, and the first of these is less by one. -/
def Nests : List Nat → Prop
  | [] => True
  | d :: later => (0 < d → later.find? (· < d) = some (d - 1)) ∧ Nests later

def events (p : Profiler) : List UsageEvent := p.completed ++ p.stack

def label (e : UsageEvent) : String × Nat := (e.name, e.depth)

def labels (p : Profiler) : List (String × Nat) := p.events.map label

structure Whole (names : List String) (labels : List (String × Nat)) : Prop where
  names : (labels.map Prod.fst).Perm (rootEvent :: names)
  nests : Nests (labels.map Prod.snd)
  root : labels.getLast? = some (rootEvent, 0)
  inner : ∀ x ∈ labels.dropLast, 0 < x.2

structure Kept (calls : List Call) (p : Profiler) (guards : List EventGuard) : Prop where
  steady : p.Steady
  sampled : ∀ e ∈ p.events, e.samples ≠ []
  sessions : ∀ g ∈ guards, ∀ n, g.session = some n → n ≤ p.session
  started : p.tracking = true → ∃ now, .start now ∈ calls
  running : (∃ now, .start now ∈ calls) → (p.tracking = true ↔ ∀ c ∈ sinceStart calls, c.stops = false)
  whole : (∃ now, .start now ∈ calls) → Whole (sessionNames calls) p.labels
  guarded : p.tracking = true → guards.count ⟨some p.session⟩ + 1 = p.stack.length

variable {p q : Profiler} {c : Call} {calls : List Call} {guards : List EventGuard}

section Histories

lemma starts_iff : c.starts = true ↔ ∃ now, c = .start now := by
  cases c <;> simp [Call.starts]

lemma sinceStart_start (calls : List Call) (now : Nat) : sinceStart (calls ++ [.start now]) = [] :=
  List.rtakeWhile_concat_neg _ _ _ (by simp [Call.starts])

lemma sinceStart_call (hc : c.starts = false) (calls : List Call) :
    sinceStart (calls ++ [c]) = sinceStart calls ++ [c] :=
  List.rtakeWhile_concat_pos _ _ _ (by simp [hc])

lemma sessionNames_running (hc : c.starts = false) (hcalls : ∀ k ∈ sinceStart calls, k.stops = false) :
    sessionNames (calls ++ [c]) = sessionNames calls ++ c.name?.toList := by
  have hall : ∀ k ∈ sinceStart calls, (!k.stops) = true := fun k hk => by rw [hcalls k hk]; rfl
  rw [sessionNames, sessionNames, sinceStart_call hc, List.takeWhile_append_of_pos hall,
    List.takeWhile_eq_self_iff.mpr hall, List.filterMap_append]
  cases c <;> rfl

lemma sessionNames_stopped (hc : c.starts = false) (hcalls : ¬∀ k ∈ sinceStart calls, k.stops = false) :
    sessionNames (calls ++ [c]) = sessionNames calls := by
  have hshort : ((sinceStart calls).takeWhile fun k => !k.stops).length ≠ (sinceStart calls).length := by
    intro hlen
    refine hcalls fun k hk => ?_
    have hself := (List.takeWhile_prefix _).eq_of_length hlen
    simpa using List.takeWhile_eq_self_iff.mp hself k hk
  rw [sessionNames, sessionNames, sinceStart_call hc, List.takeWhile_append, if_neg hshort]

lemma sessionNames_length (hcalls : ∀ k ∈ sinceStart calls, k.stops = false) :
    (sessionNames calls).length = (sinceStart calls).countP fun k => k.name?.isSome := by
  have hall : ∀ k ∈ sinceStart calls, (!k.stops) = true := fun k hk => by rw [hcalls k hk]; rfl
  rw [sessionNames, List.takeWhile_eq_self_iff.mpr hall, List.length_filterMap_eq_countP]

end Histories

section Nesting

lemma Nests.split {before later : List Nat} {d : Nat} (h : Nests (before ++ d :: later)) (hd : 0 < d) :
    later.find? (· < d) = some (d - 1) := by
  induction before with
  | nil => exact h.1 hd
  | cons x before ih => exact ih h.2

lemma find?_insert {α : Type} {before tower : List α} {n x : α} (depth : α → Nat) {d : Nat}
    (hfound : (before ++ tower).find? (depth · < d) = some x) (hx : depth x + 1 = d)
    (htower : ∀ y ∈ tower, depth y < depth n) : (before ++ n :: tower).find? (depth · < d) = some x := by
  rw [List.find?_append] at hfound ⊢
  cases hbefore : before.find? (depth · < d) with
  | some y => rwa [hbefore] at hfound
  | none =>
    -- What is found is in the tower and so less deep than `n`; then `n` is not below `d`.
    rw [hbefore, Option.none_or] at hfound
    have hlow := htower x (List.mem_of_find?_eq_some hfound)
    rw [Option.none_or, List.find?_cons_of_neg (by simp; omega), hfound]

lemma Nests.insert {before tower : List Nat} {n : Nat} (h : Nests (before ++ tower))
    (htower : ∀ d ∈ tower, d < n) (hn : tower.find? (· < n) = some (n - 1)) : Nests (before ++ n :: tower) := by
  induction before with
  | nil => exact ⟨fun _ => hn, h⟩
  | cons d before ih =>
    exact ⟨fun hd => find?_insert id (h.1 hd) (Nat.sub_add_cancel hd) htower, ih h.2⟩

lemma Tower.depth_lt {stack : List UsageEvent} (h : Tower stack) : ∀ d ∈ stack.map (·.depth), d < stack.length := by
  match stack, h with
  | [root], h => simp [h.2]
  | e :: parent :: rest, h =>
    intro d hd
    rcases List.mem_cons.mp hd with rfl | hd
    · exact h.depth.trans_lt (Nat.lt_succ_self _)
    · exact Nat.lt_succ_of_lt (h.2.depth_lt d hd)

lemma Tower.find {stack : List UsageEvent} (h : Tower stack) :
    (stack.map (·.depth)).find? (· < stack.length) = some (stack.length - 1) := by
  cases stack with
  | nil => exact h.elim
  | cons e rest => rw [List.map_cons, h.depth, List.find?_cons_of_pos (by simp)]; rfl

lemma Tower.root {stack : List UsageEvent} (h : Tower stack) :
    ∃ root, stack.getLast? = some root ∧ root.name = rootEvent ∧ root.depth = 0 := by
  match stack, h with
  | [root], h => exact ⟨root, rfl, h⟩
  | e :: parent :: rest, h =>
    obtain ⟨root, hlast, hroot⟩ := h.2.root
    exact ⟨root, by rw [List.getLast?_cons_cons, hlast], hroot⟩

lemma Tower.depth_reverse {stack : List UsageEvent} (h : Tower stack) {i : Nat} {e : UsageEvent}
    (he : stack.reverse[i]? = some e) : e.depth = i := by
  match stack, h with
  | [root], h =>
    obtain ⟨rfl, rfl⟩ : i = 0 ∧ root = e := by simpa [List.getElem?_singleton, eq_comm] using he
    exact h.2
  | x :: parent :: rest, h =>
    rw [List.reverse_cons, List.getElem?_append] at he
    split at he
    · exact h.2.depth_reverse he
    · next hi =>
      obtain ⟨hi', rfl⟩ : i - (parent :: rest).reverse.length = 0 ∧ x = e := by
        simpa [List.getElem?_singleton, eq_comm] using he
      rw [h.1]
      simp only [List.length_reverse, List.length_cons] at hi hi'
      omega

lemma Whole.insert {names : List String} {before tower : List (String × Nat)} {n : Nat}
    (h : Whole names (before ++ tower)) (hne : tower ≠ []) (hn : 0 < n)
    (htower : ∀ d ∈ tower.map Prod.snd, d < n) (hfind : (tower.map Prod.snd).find? (· < n) = some (n - 1))
    (name : String) : Whole (names ++ [name]) (before ++ (name, n) :: tower) where
  names := by
    have hperm := h.names
    rw [List.map_append] at hperm ⊢
    exact List.perm_middle.trans ((hperm.cons name).trans ((List.perm_append_singleton name _).symm))
  nests := by
    have hnests := h.nests
    rw [List.map_append] at hnests ⊢
    exact hnests.insert htower hfind
  root := by
    have hroot := h.root
    rw [List.getLast?_append_of_ne_nil _ hne] at hroot
    rw [List.getLast?_append_of_ne_nil _ (List.cons_ne_nil _ _), List.getLast?_cons_of_ne_nil hne, hroot]
  inner := by
    have hinner := h.inner
    rw [List.dropLast_append_of_ne_nil hne] at hinner
    rw [List.dropLast_append_of_ne_nil (List.cons_ne_nil _ _), List.dropLast_cons_of_ne_nil hne]
    intro x hx
    rcases List.mem_append.mp hx with hx | hx
    · exact hinner x (List.mem_append_left _ hx)
    · rcases List.mem_cons.mp hx with rfl | hx
      · exact hn
      · exact hinner x (List.mem_append_right _ hx)

end Nesting

section Turns

lemma labels_eq (p : Profiler) : p.labels = p.completed.map label ++ p.stack.map label := List.map_append

lemma Turn.labels (h : Turn p c q) :
    (p.tracking = true ∧ ∃ name, c.name? = some name ∧
      q.labels = p.completed.map label ++ (name, p.stack.length) :: p.stack.map label) ∨
    (q.labels = p.labels ∧ (p.tracking = true → c.name? = none)) := by
  cases h with
  | opened htracking => exact .inl ⟨htracking, _, rfl, labels_eq _⟩
  | idle _ htracking => exact .inr ⟨rfl, fun h => absurd (htracking.symm.trans h) nofun⟩
  | tuned => exact .inr ⟨rfl, fun _ => rfl⟩
  | overflowed => exact .inr ⟨rfl, fun _ => rfl⟩
  | missed => exact .inr ⟨rfl, fun _ => rfl⟩
  | changed _ _ hstack =>
    refine .inr ⟨?_, fun _ => rfl⟩
    rw [labels_eq, labels_eq, hstack]
    rfl
  | closed _ _ hstack =>
    refine .inr ⟨?_, fun _ => rfl⟩
    simp [labels_eq, hstack, label, UsageEvent.addSample]
  | stopped =>
    refine .inr ⟨?_, fun _ => rfl⟩
    simp [labels_eq, label, UsageEvent.addSample, Function.comp_def]

lemma keep_ne_nil (fold : Bool) (before after : Sample) (samples : List Sample) :
    keep fold before after samples ≠ [] := by
  rw [keep]
  split <;> simp

lemma addSample_ne_nil (e : UsageEvent) (s : Sample) : (e.addSample s).samples ≠ [] := by simp [UsageEvent.addSample]

lemma Turn.sampled (h : Turn p c q) (hp : ∀ e ∈ p.events, e.samples ≠ []) : ∀ e ∈ q.events, e.samples ≠ [] := by
  cases h with
  | idle => exact hp
  | tuned => exact hp
  | overflowed => exact hp
  | missed => exact hp
  | opened =>
    simp only [events, List.mem_append, List.mem_cons] at hp ⊢
    rintro e (he | rfl | he)
    · exact hp e (.inl he)
    · exact List.cons_ne_nil _ _
    · exact hp e (.inr he)
  | changed _ _ hstack =>
    simp only [events, hstack, List.mem_append, List.mem_cons] at hp ⊢
    rintro e (he | rfl | he)
    · exact hp e (.inl he)
    · exact keep_ne_nil _ _ _ _
    · exact hp e (.inr (.inr he))
  | closed _ _ hstack =>
    simp only [events, hstack, List.mem_append, List.mem_cons, List.not_mem_nil, or_false] at hp ⊢
    rintro e ((he | rfl) | rfl | he)
    · exact hp e (.inl he)
    · exact addSample_ne_nil _ _
    · exact addSample_ne_nil _ _
    · exact hp e (.inr (.inr (.inr he)))
  | stopped =>
    simp only [events, List.append_nil, List.mem_append, List.mem_map] at hp ⊢
    rintro e (he | ⟨x, _, rfl⟩)
    · exact hp e (.inl he)
    · exact addSample_ne_nil _ _

lemma Turn.session (h : Turn p c q) : q.session = p.session := by cases h <;> rfl

lemma Turn.startedAt (h : Turn p c q) : q.startedAt = p.startedAt := by cases h <;> rfl

end Turns

section Guards

lemma opened_guard (hp : p.tracking = true) (now : Nat) (name : String) : (p.opened now name).1 = ⟨some p.session⟩ := by
  rw [opened, if_pos hp]

lemma opened_guard_le {now : Nat} {name : String} {n : Nat} (h : (p.opened now name).1.session = some n) :
    n ≤ p.session := by
  rw [opened] at h
  split at h
  · exact (Option.some.inj h).ge
  · cases h

lemma mem_guardsAfter {g : EventGuard} (hg : g ∈ p.guardsAfter guards c) (hsessions : ∀ g ∈ guards, ∀ n,
    g.session = some n → n ≤ p.session) : ∀ n, g.session = some n → n ≤ p.session := by
  cases c with
  | openEvent now name =>
    rcases List.mem_cons.mp hg with rfl | hg
    · exact fun n => opened_guard_le
    · exact hsessions g hg
  | close now g' => exact hsessions g (List.mem_of_mem_erase hg)
  | _ => exact hsessions g hg

lemma Turn.guarded (h : Turn p c q) (hguarded : guards.count ⟨some p.session⟩ + 1 = p.stack.length)
    (hc : ∀ now g, c = .close now g → g ∈ guards) (hq : q.tracking = true) :
    (p.guardsAfter guards c).count ⟨some p.session⟩ + 1 = q.stack.length := by
  cases h with
  | idle _ htracking => exact absurd (htracking.symm.trans hq) nofun
  | tuned => exact hguarded
  | overflowed => exact hguarded
  | changed _ _ hstack =>
    rw [hstack] at hguarded
    exact hguarded
  | opened htracking =>
    rw [guardsAfter, opened_guard htracking, List.count_cons_self, hguarded]
    rfl
  | @closed now g e parent rest _ hg hstack =>
    have hmem := hc now g rfl
    obtain rfl : g = ⟨some p.session⟩ := by
      cases g
      exact congrArg EventGuard.mk hg
    have hpos := List.count_pos_iff.mpr hmem
    rw [guardsAfter, List.count_erase_self]
    rw [hstack] at hguarded
    simp only [List.length_cons] at hguarded ⊢
    omega
  | @missed now g hshort =>
    have hmem := hc now g rfl
    have hne : (⟨some p.session⟩ : EventGuard) ≠ g := by
      rintro rfl
      have hpos := List.count_pos_iff.mpr hmem
      have hlen := hshort rfl
      omega
    rwa [guardsAfter, List.count_erase_of_ne hne]
  | stopped => cases hq

end Guards

section Runs

lemma whole_started (p : Profiler) (now : Nat) : Whole [] (p.started now).labels :=
  ⟨.refl _, ⟨fun h => absurd h (Nat.lt_irrefl 0), trivial⟩, rfl, nofun⟩

lemma Kept.start (h : Kept calls p guards) (now : Nat) : Kept (calls ++ [.start now]) (p.started now) guards where
  steady := steady_started p now
  sampled e he := by
    obtain rfl := List.mem_singleton.mp he
    exact List.cons_ne_nil _ _
  sessions g hg n hn := (h.sessions g hg n hn).trans (Nat.le_succ _)
  started _ := ⟨now, by simp⟩
  running _ := by
    rw [sinceStart_start]
    exact ⟨fun _ => nofun, fun _ => rfl⟩
  whole _ := by
    rw [sessionNames, sinceStart_start]
    exact whole_started p now
  guarded _ := by
    -- Guards of the new session cannot have been handed out before it.
    have hnone : (⟨some (p.session + 1)⟩ : EventGuard) ∉ guards := fun hg => by
      have hle := h.sessions _ hg _ rfl
      omega
    change guards.count ⟨some (p.session + 1)⟩ + 1 = 1
    rw [List.count_eq_zero_of_not_mem hnone]

lemma mem_start_of_turn (hc : c.starts = false) {now : Nat} (h : .start now ∈ calls ++ [c]) : .start now ∈ calls := by
  rcases List.mem_append.mp h with h | h
  · exact h
  · obtain rfl := List.mem_singleton.mp h
    cases hc

lemma Kept.whole_turn (h : Kept calls p guards) (hc : c.starts = false) (hturn : Turn p c q)
    (hstarted : ∃ now, .start now ∈ calls) : Whole (sessionNames (calls ++ [c])) q.labels := by
  have hrunning := h.running hstarted
  have hwhole := h.whole hstarted
  by_cases htracking : p.tracking = true
  · rw [sessionNames_running hc (hrunning.mp htracking)]
    have htower := h.steady.tower htracking
    rcases hturn.labels with ⟨_, name, hname, hlabels⟩ | ⟨hlabels, hname⟩
    · rw [hlabels, hname]
      rw [labels_eq] at hwhole
      have hsnd : (p.stack.map label).map Prod.snd = p.stack.map (·.depth) := by simp [label, Function.comp_def]
      refine hwhole.insert (by simpa using htower.ne_nil) (List.length_pos_iff.mpr htower.ne_nil) ?_ ?_ name
      · rw [hsnd]
        exact htower.depth_lt
      · rw [hsnd]
        exact htower.find
    · rw [hlabels, hname htracking, Option.toList_none, List.append_nil]
      exact hwhole
  · rw [sessionNames_stopped hc (mt hrunning.mpr htracking)]
    rcases hturn.labels with ⟨h, _⟩ | ⟨hlabels, _⟩
    · exact absurd h htracking
    · rwa [hlabels]

lemma Kept.turn (h : Kept calls p guards) (hc : c.starts = false) (hturn : Turn p c q)
    (hheld : ∀ now g, c = .close now g → g ∈ guards) : Kept (calls ++ [c]) q (p.guardsAfter guards c) where
  steady := h.steady.after_turn hturn
  sampled := hturn.sampled h.sampled
  sessions g hg n hn := hturn.session ▸ mem_guardsAfter hg h.sessions n hn
  started hq := by
    obtain ⟨now, hnow⟩ := h.started (hturn.tracking.mp hq).1
    exact ⟨now, List.mem_append_left _ hnow⟩
  running := by
    rintro ⟨now, hnow⟩
    rw [hturn.tracking, h.running ⟨now, mem_start_of_turn hc hnow⟩, sinceStart_call hc, List.forall_mem_append]
    simp
  whole := by
    rintro ⟨now, hnow⟩
    exact h.whole_turn hc hturn ⟨now, mem_start_of_turn hc hnow⟩
  guarded hq := by
    rw [hturn.session]
    exact hturn.guarded (h.guarded (hturn.tracking.mp hq).1) hheld hq

lemma kept_idle (granularity now : Nat) : Kept [] (.idle granularity now) [] where
  steady := steady_idle granularity now
  sampled := nofun
  sessions := nofun
  started := nofun
  running := nofun
  whole := nofun
  guarded := nofun

theorem Reached.kept (h : Reached calls p guards) : Kept calls p guards := by
  induction h with
  | idle granularity now => exact kept_idle granularity now
  | call c _ hheld ih =>
    cases hc : c.starts with
    | false => exact ih.turn hc (ih.steady.turn hc) hheld
    | true =>
      obtain ⟨now, rfl⟩ := starts_iff.mp hc
      exact ih.start now

lemma Kept.closes (h : Kept calls p guards) (htracking : p.tracking = true) {g : EventGuard} (hg : g ∈ guards)
    (hsession : g.session = some p.session) (now : Nat) : ∃ e parent rest, p.stack = e :: parent :: rest ∧
      0 < e.depth ∧ p.after (.close now g) = { p with
        stack := parent.addSample (p.sample now) :: rest,
        completed := p.completed ++ [e.addSample (p.sample now)] } := by
  have htower := h.steady.tower htracking
  have hcount := h.guarded htracking
  have hpos : 0 < guards.count ⟨some p.session⟩ := by
    obtain rfl : g = ⟨some p.session⟩ := by
      cases g
      exact congrArg EventGuard.mk hsession
    exact List.count_pos_iff.mpr hg
  match hstack : p.stack with
  | [] => exact (htower.ne_nil hstack).elim
  | [_] =>
    rw [hstack, List.length_singleton] at hcount
    omega
  | e :: parent :: rest =>
    exact ⟨e, parent, rest, rfl, (hstack ▸ htower).depth ▸ Nat.succ_pos _, after_close h.steady hsession hstack now⟩

lemma Whole.parent {names : List String} {es : List UsageEvent} (h : Whole names (es.map label))
    {before later : List UsageEvent} {e : UsageEvent} (hes : es = before ++ e :: later) (he : 0 < e.depth) :
    ∃ f, later.find? (·.depth < e.depth) = some f ∧ f.depth + 1 = e.depth := by
  have hnests : Nests ((before.map (·.depth)) ++ e.depth :: later.map (·.depth)) := by
    have hnests := h.nests
    rw [hes] at hnests
    simpa [label, Function.comp_def] using hnests
  have hfound := hnests.split he
  rw [List.find?_map, Option.map_eq_some_iff] at hfound
  obtain ⟨f, hf, hdepth⟩ := hfound
  exact ⟨f, hf, by omega⟩

lemma Whole.root_last {names : List String} {es : List UsageEvent} (h : Whole names (es.map label)) :
    ∃ inner root, es = inner ++ [root] ∧ root.name = rootEvent ∧ root.depth = 0 ∧ ∀ e ∈ inner, 0 < e.depth := by
  have hroot := h.root
  rw [List.getLast?_map, Option.map_eq_some_iff] at hroot
  obtain ⟨root, hlast, hlabel⟩ := hroot
  obtain ⟨inner, rfl⟩ := List.getLast?_eq_some_iff.mp hlast
  refine ⟨inner, root, rfl, congrArg Prod.fst hlabel, congrArg Prod.snd hlabel, fun e he => ?_⟩
  have hinner := h.inner
  rw [List.map_append, List.map_singleton, List.dropLast_concat] at hinner
  exact hinner _ (List.mem_map_of_mem he)

/-- Sessions nest and lose nothing: the open events stand on the root one above the other, every event is
sampled, a guard of the session closes the innermost event and never the root, and a session that is over
has completed all its events, each before its parent. -/
theorem sessions_nested (h : Reached calls p guards) :
    (∀ e ∈ p.stack ++ p.completed, e.samples ≠ []) ∧
    (p.tracking = false → p.stack = []) ∧
    (p.tracking = true →
      (∃ root, p.stack.getLast? = some root ∧ root.name = rootEvent ∧ root.depth = 0) ∧
      (∀ (i : Nat) (e : UsageEvent), p.stack.reverse[i]? = some e → e.depth = i) ∧
      p.completed.length + p.stack.length = 1 + (sinceStart calls).countP fun c => c.name?.isSome) ∧
    (p.tracking = true → ∀ g ∈ guards, g.session = some p.session → ∀ now, ∃ e parent rest,
      p.stack = e :: parent :: rest ∧ 0 < e.depth ∧ p.after (.close now g) = { p with
        stack := parent.addSample (p.sample now) :: rest,
        completed := p.completed ++ [e.addSample (p.sample now)] }) ∧
    ((∃ now, .start now ∈ calls) → (∃ c ∈ sinceStart calls, c.stops = true) →
      (p.completed.map (·.name)).Perm (rootEvent :: sessionNames calls) ∧
      (∃ inner root, p.completed = inner ++ [root] ∧ root.name = rootEvent ∧ root.depth = 0 ∧
        ∀ e ∈ inner, 0 < e.depth) ∧
      ∀ (before later : List UsageEvent) (e : UsageEvent), p.completed = before ++ e :: later → 0 < e.depth →
        ∃ f, later.find? (·.depth < e.depth) = some f ∧ f.depth + 1 = e.depth) := by
  have hkept := h.kept
  refine ⟨fun e he => hkept.sampled e (List.mem_append.mpr (List.mem_append.mp he).symm), hkept.steady.idle,
    fun htracking => ?_, fun htracking g hg hsession now => hkept.closes htracking hg hsession now,
    fun hstarted hstops => ?_⟩
  · have htower := hkept.steady.tower htracking
    have hstarted := hkept.started htracking
    refine ⟨htower.root, fun i e => htower.depth_reverse, ?_⟩
    have hlen := (hkept.whole hstarted).names.length_eq
    simp only [labels, events, List.length_map, List.length_append, List.length_cons] at hlen
    rw [hlen, sessionNames_length ((hkept.running hstarted).mp htracking), Nat.add_comm]
  · have hwhole := hkept.whole hstarted
    have hidle : p.tracking = false := by
      obtain ⟨c, hc, hstop⟩ := hstops
      refine Bool.eq_false_iff.mpr fun htracking => ?_
      cases hstop.symm.trans ((hkept.running hstarted).mp htracking c hc)
    rw [labels, events, hkept.steady.idle hidle, List.append_nil] at hwhole
    refine ⟨?_, hwhole.root_last, fun before later e hsplit he => hwhole.parent hsplit he⟩
    have hnames := hwhole.names
    rwa [List.map_map] at hnames

def tangled : List Call :=
  [.start 0, .openEvent 1 "a", .openEvent 2 "b", .stop 3, .openEvent 3 "idle", .start 4, .openEvent 5 "c",
    .openEvent 5 "d", .close 6 ⟨some 1⟩, .close 7 ⟨some 2⟩, .openEvent 7 "e", .stop 8, .close 9 ⟨some 1⟩]

lemma tangled_reached : Reached tangled ((idle 20 0).run tangled) [⟨some 2⟩, ⟨some 2⟩, ⟨none⟩] := by
  have h := (Reached.idle 20 0).call (.start 0) nofun
  have h := h.call (.openEvent 1 "a") nofun
  have h := h.call (.openEvent 2 "b") nofun
  have h := h.call (.stop 3) nofun
  have h := h.call (.openEvent 3 "idle") nofun
  have h := h.call (.start 4) nofun
  have h := h.call (.openEvent 5 "c") nofun
  have h := h.call (.openEvent 5 "d") nofun
  have h := h.call (.close 6 ⟨some 1⟩) (by rintro _ _ ⟨⟩; decide)
  have h := h.call (.close 7 ⟨some 2⟩) (by rintro _ _ ⟨⟩; decide)
  have h := h.call (.openEvent 7 "e") nofun
  have h := h.call (.stop 8) nofun
  exact h.call (.close 9 ⟨some 1⟩) (by rintro _ _ ⟨⟩; decide)

theorem sessions_nested_tangled :
    (((idle 20 0).run tangled).completed.map (·.name)).Perm [rootEvent, "c", "d", "e"] ∧
      ((idle 20 0).run tangled).completed.map (·.depth) = [2, 2, 1, 0] := by
  obtain ⟨_, _, _, _, hover⟩ := sessions_nested tangled_reached
  exact ⟨(hover ⟨4, by decide⟩ (by decide)).1, by decide⟩

end Runs

end BitStore.Profiler
