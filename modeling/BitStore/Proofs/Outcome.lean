import BitStore.Action
import Mathlib.Tactic.Lemma

/-! How an action ends: exactly (`Yields`), with an answer that meets a condition (`Ends`), or so or in an error
(`Settles`). -/

namespace BitStore.Action

variable {σ α β : Type} {s t u : σ}

def Yields (x : Action σ α) (s : σ) (r : Except Stop α) (t : σ) : Prop :=
  (x.run s).result = r ∧ (x.run s).state = t

def Ends (x : Action σ α) (s : σ) (post : α → σ → Prop) : Prop :=
  ∃ a t, x.Yields s (.ok a) t ∧ post a t

def Settles (x : Action σ α) (s : σ) (refused : StoreError → σ → Prop) (post : α → σ → Prop) : Prop :=
  (∃ e t, x.Yields s (.error (.error e)) t ∧ refused e t) ∨ x.Ends s post

lemma run_bind (x : Action σ α) (f : α → Action σ β) :
    (x >>= f).run s = match x.run s with
      | ⟨.ok a, t, before⟩ =>
        ⟨((f a).run t).result, ((f a).run t).state, before ++ ((f a).run t).notes⟩
      | ⟨.error e, t, before⟩ => ⟨.error e, t, before⟩ := by
  change Action.bind x f s = _
  rw [Action.bind]
  rfl

lemma run_bind_ok {x : Action σ α} {a : α} (hx : x.run s = ⟨.ok a, s, []⟩) (f : α → Action σ β) :
    (x >>= f).run s = (f a).run s := by
  rw [run_bind, hx]
  rfl

lemma ok_of_bind {x : Action σ α} {f : α → Action σ β} {b : β} (h : ((x >>= f).run s).result = .ok b) :
    ∃ a t, (x.run s).result = .ok a ∧ ((f a).run t).result = .ok b := by
  rw [run_bind] at h
  cases hx : x.run s with
  | mk result state notes =>
    rw [hx] at h
    cases result with
    | error e => cases h
    | ok a => exact ⟨a, state, rfl, h⟩

lemma ok_of_lift {x : Except Fault α} {a : α} (h : ((liftM x : Action σ α).run s).result = .ok a) :
    x = .ok a := by
  cases x with
  | error f => cases h
  | ok b =>
    obtain rfl := Except.ok.inj h
    rfl

lemma yields_of_run {x : Action σ α} {r : Except Stop α} {notes : List Note} (h : x.run s = ⟨r, t, notes⟩) :
    x.Yields s r t := by
  rw [Yields, h]
  exact ⟨rfl, rfl⟩

lemma yields_pure (a : α) : (pure a : Action σ α).Yields s (.ok a) s := ⟨rfl, rfl⟩

lemma yields_get : (get : Action σ σ).Yields s (.ok s) s := ⟨rfl, rfl⟩

lemma yields_set : (set t).Yields s (.ok ()) t := ⟨rfl, rfl⟩

lemma yields_say (n : Note) : (say n).Yields s (.ok ()) s := ⟨rfl, rfl⟩

lemma yields_fail (e : StoreError) : (fail e : Action σ α).Yields s (.error (.error e)) s :=
  ⟨rfl, rfl⟩

lemma yields_lift {x : Except Fault α} {a : α} (h : x = .ok a) :
    (liftM x : Action σ α).Yields s (.ok a) s := by
  subst h
  exact ⟨rfl, rfl⟩

lemma yields_read {f : σ → Except Fault α} {a : α} (h : f s = .ok a) : (read f).Yields s (.ok a) s := by
  rw [Yields, run, read, h]
  exact ⟨rfl, rfl⟩

lemma yields_update {f : σ → Except Fault (α × σ)} {a : α} (h : f s = .ok (a, t)) :
    (update f).Yields s (.ok a) t := by
  rw [Yields, run, update, h]
  exact ⟨rfl, rfl⟩

lemma Yields.bind {x : Action σ α} {f : α → Action σ β} {a : α} {r : Except Stop β}
    (hx : x.Yields s (.ok a) t) (hf : (f a).Yields t r u) : (x >>= f).Yields s r u := by
  obtain ⟨hr, ht⟩ := hx
  rw [Yields, run_bind]
  cases hrun : x.run s with
  | mk result state notes =>
    rw [hrun] at hr ht
    subst hr ht
    exact hf

lemma Yields.bind_error {x : Action σ α} {f : α → Action σ β} {e : Stop}
    (hx : x.Yields s (.error e) t) : (x >>= f).Yields s (.error e) t := by
  obtain ⟨hr, ht⟩ := hx
  rw [Yields, run_bind]
  cases hrun : x.run s with
  | mk result state notes =>
    rw [hrun] at hr ht
    subst hr ht
    exact ⟨rfl, rfl⟩

lemma notes_bind {x : Action σ α} {f : α → Action σ β} {n : Note} (hn : n ∈ (x.run s).notes) :
    n ∈ ((x >>= f).run s).notes := by
  rw [run_bind]
  cases hrun : x.run s with
  | mk result state notes =>
    rw [hrun] at hn
    cases result with
    | error e => exact hn
    | ok a => exact List.mem_append_left _ hn

lemma Yields.notes_bind {x : Action σ α} {f : α → Action σ β} {a : α} {n : Note} (hx : x.Yields s (.ok a) t)
    (hn : n ∈ ((f a).run t).notes) : n ∈ ((x >>= f).run s).notes := by
  obtain ⟨hr, ht⟩ := hx
  rw [run_bind]
  cases hrun : x.run s with
  | mk result state notes =>
    rw [hrun] at hr ht
    subst hr ht
    exact List.mem_append_right _ hn

lemma Yields.ends {x : Action σ α} {a : α} {post : α → σ → Prop} (hx : x.Yields s (.ok a) t)
    (h : post a t) : x.Ends s post :=
  ⟨a, t, hx, h⟩

lemma Yields.bind_ends {x : Action σ α} {f : α → Action σ β} {a : α} {post : β → σ → Prop}
    (hx : x.Yields s (.ok a) t) (hf : (f a).Ends t post) : (x >>= f).Ends s post := by
  obtain ⟨b, u, hy, hp⟩ := hf
  exact ⟨b, u, hx.bind hy, hp⟩

lemma Ends.bind {x : Action σ α} {f : α → Action σ β} {mid : α → σ → Prop} {post : β → σ → Prop}
    (hx : x.Ends s mid) (hf : ∀ a t, mid a t → (f a).Ends t post) : (x >>= f).Ends s post := by
  obtain ⟨a, t, hy, hm⟩ := hx
  exact hy.bind_ends (hf a t hm)

lemma Ends.mono {x : Action σ α} {mid post : α → σ → Prop} (hx : x.Ends s mid)
    (h : ∀ a t, mid a t → post a t) : x.Ends s post := by
  obtain ⟨a, t, hy, hm⟩ := hx
  exact ⟨a, t, hy, h a t hm⟩

lemma Yields.bind_settles {x : Action σ α} {f : α → Action σ β} {a : α} {refused : StoreError → σ → Prop}
    {post : β → σ → Prop} (hx : x.Yields s (.ok a) t) (hf : (f a).Settles t refused post) :
    (x >>= f).Settles s refused post := by
  rcases hf with ⟨e, u, hy, hr⟩ | hy
  · exact .inl ⟨e, u, hx.bind hy, hr⟩
  · exact .inr (hx.bind_ends hy)

lemma Settles.bind {x : Action σ α} {f : α → Action σ β} {refused : StoreError → σ → Prop}
    {mid : α → σ → Prop} {post : β → σ → Prop} (hx : x.Settles s refused mid)
    (hf : ∀ a t, mid a t → (f a).Settles t refused post) : (x >>= f).Settles s refused post := by
  rcases hx with ⟨e, t, hy, hr⟩ | ⟨a, t, hy, hm⟩
  · exact .inl ⟨e, t, hy.bind_error, hr⟩
  · exact hy.bind_settles (hf a t hm)

lemma Settles.mono {x : Action σ α} {refused refused' : StoreError → σ → Prop} {mid post : α → σ → Prop}
    (hx : x.Settles s refused mid) (hr : ∀ e t, refused e t → refused' e t)
    (hm : ∀ a t, mid a t → post a t) : x.Settles s refused' post := by
  rcases hx with ⟨e, t, hy, he⟩ | hy
  · exact .inl ⟨e, t, hy, hr e t he⟩
  · exact .inr (hy.mono hm)

lemma settles_congr {x y : Action σ α} {refused : StoreError → σ → Prop} {post : α → σ → Prop}
    (h : x.run s = y.run s) : x.Settles s refused post ↔ y.Settles s refused post := by
  simp only [Settles, Ends, Yields, h]

lemma Settles.refused {x : Action σ α} {refused : StoreError → σ → Prop} {post : α → σ → Prop} {e : Stop}
    (hx : x.Settles s refused post) (hy : x.Yields s (.error e) t) : ∃ e', e = .error e' ∧ refused e' t := by
  obtain ⟨hr, rfl⟩ := hy
  rcases hx with ⟨e', _, ⟨hr', rfl⟩, he⟩ | ⟨a, _, ⟨hr', _⟩, _⟩
  · exact ⟨e', Except.error.inj (hr.symm.trans hr'), he⟩
  · cases hr.symm.trans hr'

lemma Settles.post {x : Action σ α} {refused : StoreError → σ → Prop} {post : α → σ → Prop} {a : α}
    (hx : x.Settles s refused post) (hy : x.Yields s (.ok a) t) : post a t := by
  obtain ⟨hr, rfl⟩ := hy
  rcases hx with ⟨_, _, ⟨hr', _⟩, _⟩ | ⟨a', _, ⟨hr', rfl⟩, ha⟩
  · cases hr.symm.trans hr'
  · obtain rfl := Except.ok.inj (hr.symm.trans hr')
    exact ha

lemma Ends.settles {x : Action σ α} {post : α → σ → Prop} (hx : x.Ends s post) :
    x.Settles s (fun _ _ => False) post :=
  .inr hx

lemma yields_zoom {τ : Type} {part : σ → τ} {put : τ → σ → σ} {x : Action τ α} {r : Except Stop α} {u : τ}
    (hx : x.Yields (part s) r u) : (zoom part put x).Yields s r (put u s) := by
  obtain ⟨hr, hu⟩ := hx
  change (x (part s)).result = r at hr
  change (x (part s)).state = u at hu
  subst hr hu
  exact ⟨rfl, rfl⟩

lemma zoom_congr {τ : Type} {part : σ → τ} {put : τ → σ → σ} {x y : Action τ α}
    (h : x.run (part s) = y.run (part s)) : (zoom part put x).run s = (zoom part put y).run s := by
  change x (part s) = y (part s) at h
  rw [run, run, zoom, zoom, h]

lemma Settles.zoom {τ : Type} {part : σ → τ} {put : τ → σ → σ} {x : Action τ α}
    {refused : StoreError → τ → Prop} {mid : α → τ → Prop} {refused' : StoreError → σ → Prop}
    {post : α → σ → Prop} (hx : x.Settles (part s) refused mid) (hr : ∀ e u, refused e u → refused' e (put u s))
    (hm : ∀ a u, mid a u → post a (put u s)) : (Action.zoom part put x).Settles s refused' post := by
  rcases hx with ⟨e, u, hy, he⟩ | ⟨a, u, hy, ha⟩
  · exact .inl ⟨e, _, yields_zoom hy, hr e u he⟩
  · exact .inr ⟨a, _, yields_zoom hy, hm a u ha⟩

lemma settles_pure {refused : StoreError → σ → Prop} {post : α → σ → Prop} {a : α} (h : post a s) :
    (pure a : Action σ α).Settles s refused post :=
  .inr ((yields_pure a).ends h)

lemma settles_fail {refused : StoreError → σ → Prop} {post : α → σ → Prop} {e : StoreError} (h : refused e s) :
    (fail e : Action σ α).Settles s refused post :=
  .inl ⟨e, s, yields_fail e, h⟩

def Faults (x : Action σ α) (s : σ) : Prop := ∃ f, (x.run s).result = .error (.fault f)

lemma Settles.not_faults {x : Action σ α} {refused : StoreError → σ → Prop} {post : α → σ → Prop}
    (hx : x.Settles s refused post) : ¬x.Faults s := by
  rintro ⟨f, hf⟩
  obtain ⟨e, he, _⟩ := hx.refused ⟨hf, rfl⟩
  cases he

lemma not_faults_fail (e : StoreError) : ¬(fail e : Action σ α).Faults s := by
  rintro ⟨f, hf⟩
  cases hf

lemma faults_lift_iff {x : Except Fault α} : (liftM x : Action σ α).Faults s ↔ ∃ f, x = .error f := by
  cases x with
  | ok a => constructor <;> rintro ⟨f, hf⟩ <;> cases hf
  | error f => exact ⟨fun _ => ⟨f, rfl⟩, fun _ => ⟨f, rfl⟩⟩

lemma Yields.faults_iff {x : Action σ α} {f : α → Action σ β} {a : α} (hx : x.Yields s (.ok a) t) :
    (x >>= f).Faults s ↔ (f a).Faults t := by
  have hbind := hx.bind (f := f) ⟨rfl, rfl⟩
  rw [Faults, Faults, hbind.1]

lemma Faults.bind {x : Action σ α} (hx : x.Faults s) (f : α → Action σ β) : (x >>= f).Faults s := by
  obtain ⟨e, he⟩ := hx
  exact ⟨e, (Yields.bind_error ⟨he, rfl⟩).1⟩

lemma faults_bind_iff {x : Action σ α} {f : α → Action σ β} (hf : ∀ a t, ¬(f a).Faults t) :
    (x >>= f).Faults s ↔ x.Faults s := by
  refine ⟨fun h => ?_, fun h => h.bind f⟩
  cases hx : (x.run s).result with
  | ok a => exact absurd ((Yields.faults_iff ⟨hx, rfl⟩).mp h) (hf a _)
  | error e =>
    obtain ⟨fault, hfault⟩ := h
    rw [(Yields.bind_error (f := f) ⟨hx, rfl⟩).1] at hfault
    exact ⟨fault, hx.trans (congrArg Except.error (Except.error.inj hfault))⟩

def Still (x : Action σ α) : Prop := ∀ s, (x.run s).state = s

lemma still_pure (a : α) : (pure a : Action σ α).Still := fun _ => rfl

lemma still_say (n : Note) : (say n : Action σ Unit).Still := fun _ => rfl

lemma still_fail (e : StoreError) : (fail e : Action σ α).Still := fun _ => rfl

lemma still_lift (x : Except Fault α) : (liftM x : Action σ α).Still := fun _ => by
  cases x <;> rfl

lemma Still.bind {x : Action σ α} {f : α → Action σ β} (hx : x.Still) (hf : ∀ a, (f a).Still) : (x >>= f).Still := by
  intro s
  have hs := hx s
  rw [run_bind]
  cases hrun : x.run s with
  | mk result state notes =>
    rw [hrun] at hs
    subst hs
    cases result with
    | error e => rfl
    | ok a => exact hf a _

lemma still_get : (get : Action σ σ).Still := fun _ => rfl

def Leaves {τ : Type} (part : σ → τ) (x : Action σ α) : Prop := ∀ s, part (x.run s).state = part s

lemma Still.leaves {τ : Type} {x : Action σ α} (hx : x.Still) (part : σ → τ) : x.Leaves part :=
  fun s => congrArg part (hx s)

lemma Leaves.eq {τ : Type} {part : σ → τ} {x : Action σ α} {r : Except Stop α} (hx : x.Leaves part)
    (hy : x.Yields s r t) : part t = part s :=
  hy.2 ▸ hx s

lemma Leaves.bind {τ : Type} {part : σ → τ} {x : Action σ α} {f : α → Action σ β} (hx : x.Leaves part)
    (hf : ∀ a, (f a).Leaves part) : (x >>= f).Leaves part := by
  intro s
  have hs := hx s
  rw [run_bind]
  cases hrun : x.run s with
  | mk result state notes =>
    rw [hrun] at hs
    cases result with
    | error e => exact hs
    | ok a => exact (hf a state).trans hs

end BitStore.Action
