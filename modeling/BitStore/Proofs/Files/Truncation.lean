import BitStore.Proofs.Files.Mirror

namespace BitStore

open BitStore.Action

namespace MappedFile

structure Intact (f g : MappedFile) : Prop where
  disk : g.disk? = f.disk?
  mode : g.mapping.map (·.mode) = f.mapping.map (·.mode)
  len : g.mapping.map (·.len) = f.mapping.map (·.len)
  view : g.mapping.map g.view = f.mapping.map f.view

variable {f : MappedFile} {m : Mapping} {len n : Nat}

lemma Intact.refl (f : MappedFile) : f.Intact f := ⟨rfl, rfl, rfl, rfl⟩

lemma intact_torn_iff (hm : f.mapping = some (.whole .readWrite n)) :
    f.Intact { f with mapping := some (.whole .readWrite 0) } ↔ n = 0 := by
  constructor
  · intro h
    have hlen := h.len
    rw [hm] at hlen
    exact (Option.some.inj hlen).symm
  · rintro rfl
    rw [← hm]
    exact .refl f

def failure (f : MappedFile) (m : Mapping) (len : Nat) : StoreError × MappedFile :=
  if m.mode = .read then (.file (.truncating f.path) .mappedReadOnly, f)
  else (.file (.truncatingTo f.path len) .lengthTooLarge, { f with mapping := some (.whole m.mode 0) })

lemma truncate_fails (hf : f.Covered) (hm : f.mapping = some m) (h : m.mode = .read ∨ maxLen < len) :
    (truncate m len).Yields f (.error (.error (f.failure m len).1)) (f.failure m len).2 := by
  obtain ⟨bytes, mode, n, hnode, hn, rfl⟩ := hf m hm
  cases mode with
  | read => exact truncate_readOnly f n len
  | readWrite => exact truncate_tooLong hm (h.resolve_left nofun)

lemma truncate_succeeds (hf : f.Covered) (hm : f.mapping = some m) (h : ¬(m.mode = .read ∨ maxLen < len)) :
    ((truncate m len).run f).result = .ok () := by
  obtain ⟨bytes, mode, n, hnode, hn, rfl⟩ := hf m hm
  obtain ⟨hmode, hlen⟩ := not_or.mp h
  cases mode with
  | read => exact absurd rfl hmode
  | readWrite => exact (truncate_fits hm hnode (Nat.not_lt.mp hlen)).1

lemma failure_intact (hf : f.Covered) (hm : f.mapping = some m) (len : Nat) :
    (f.failure m len).2.disk? = f.disk? ∧ (f.failure m len).2.mapping.map (·.mode) = some m.mode ∧
    (f.Intact (f.failure m len).2 ↔ m.mode = .read ∨ m.len = 0) := by
  obtain ⟨bytes, mode, n, hnode, hn, rfl⟩ := hf m hm
  cases mode with
  | read => exact ⟨rfl, congrArg (Option.map (·.mode)) hm, iff_of_true (.refl f) (.inl rfl)⟩
  | readWrite => exact ⟨rfl, rfl, (intact_torn_iff hm).trans (or_iff_right nofun).symm⟩

/-- However a file came to be open, a change of its length fails for a mapping for reading and for a length that no
file can have. The bytes on disk and the mode are what they were; what the mapping shows is too in the first case,
and in the second only if it showed nothing. -/
theorem failed_truncate (path : String) (node : FileNode) (steps : List Step) (len : Nat)
    (hm : ((ofNode path node).after steps).mapping = some m) :
    let f := (ofNode path node).after steps
    let o := (truncate m len).run f
    ((∃ e, o.result = .error e) ↔ m.mode = .read ∨ maxLen < len) ∧
    ∀ e, o.result = .error e →
      e = .error (f.failure m len).1 ∧ o.state = (f.failure m len).2 ∧
      o.state.disk? = f.disk? ∧ o.state.mapping.map (·.mode) = some m.mode ∧
      (f.Intact o.state ↔ m.mode = .read ∨ m.len = 0) := by
  intro f o
  have hf : f.Covered := ((mirrors_of path node).follow steps).covered
  by_cases h : m.mode = .read ∨ maxLen < len
  · obtain ⟨hresult, hstate⟩ := truncate_fails hf hm h
    refine ⟨iff_of_true ⟨_, hresult⟩ h, fun e he => ?_⟩
    obtain ⟨hdisk, hmode, hintact⟩ := failure_intact hf hm len
    rw [show o.state = (f.failure m len).2 from hstate]
    exact ⟨(Except.error.inj (hresult.symm.trans he)).symm, rfl, hdisk, hmode, hintact⟩
  · have hresult := truncate_succeeds hf hm h
    refine ⟨iff_of_false (fun ⟨e, he⟩ => ?_) h, fun e he => ?_⟩ <;> cases hresult.symm.trans he

theorem failed_truncate_readOnly :
    let f := (ofNode "a" (.regular [1, 2, 3])).after [.openAs .read]
    f.mapping = some (.whole .read 3) ∧ f.Intact ((truncate (.whole .read 3) 1).run f).state := by
  intro f
  obtain ⟨_, hfailed⟩ := failed_truncate "a" (.regular [1, 2, 3]) [.openAs .read] 1 (m := .whole .read 3) rfl
  obtain ⟨_, _, _, _, hintact⟩ := hfailed _ rfl
  exact ⟨rfl, hintact.mpr (.inl rfl)⟩

theorem failed_truncate_tears :
    let f := (ofNode "a" (.regular [49, 50, 51, 52])).after [.openAs .readWrite]
    let o := (truncate (.whole .readWrite 4) (maxLen + 1)).run f
    f.mapping.map f.view = some (.ok [49, 50, 51, 52]) ∧ (∃ e, o.result = .error e) ∧
    o.state.disk? = some [49, 50, 51, 52] ∧ o.state.mapping.map o.state.view = some (.ok []) :=
  ⟨rfl, ⟨_, rfl⟩, rfl, rfl⟩

end MappedFile

end BitStore
