import BitStore.Proofs.Store.Isolation

namespace BitStore

open BitStore.Action

namespace Workspace

variable {w : Workspace} {now i len : Nat}

lemma Secure.resize_error (hw : w.Secure) {e : StoreError}
    (he : ((Held.resize now len).run ⟨w.vectors i, w.store⟩).result = .error (.error e)) :
    ∃ t, w.step (.resize now i len) = w.withStore t ∧
      (paddedBytes? len = none ∧ t = w.store ∨ ∃ padded, paddedBytes? len = some padded ∧
        (Store.resizeBlock ((w.vectors i).data.getD 0) padded).Yields w.store (.error (.error e)) t) := by
  obtain ⟨r, h, ⟨hr, hstate⟩, hresized⟩ := Held.resize_resized (hw.padded i) now len w.store
  obtain rfl := hr.symm.trans he
  have hstep (t : Store) (ht : h = ⟨w.vectors i, t⟩) : w.step (.resize now i len) = w.withStore t := by
    change w.withHeld i ((Held.resize now len).run ⟨w.vectors i, w.store⟩).state = _
    rw [hstate, ht, hw.withHeld_same]
  cases hresized with
  | tooLong hlen => exact ⟨_, hstep _ rfl, .inl ⟨hlen, rfl⟩⟩
  | refused hlen hblock => exact ⟨_, hstep _ rfl, .inr ⟨_, hlen, hblock⟩⟩
  -- The profiler may fault, but it does not fail.
  | moved _ _ _ _ htold => exact absurd htold.1 (Profiler.told_ne_error _ _ _ _ e)

lemma Secure.refused_by (hw : w.Secure) (ht : w.store.Trusted) {padded : Nat} {t : Store} {e : StoreError}
    (hblock : (Store.resizeBlock ((w.vectors i).data.getD 0) padded).Yields w.store (.error (.error e)) t) :
    w.store.Refused t := by
  obtain ⟨k, _, hnames⟩ := hw.names (.vector i)
  rw [← pointer_vector] at hblock
  obtain ⟨_, _, hrefused⟩ := (Store.resizeBlock_settles hw.sound ht padded hnames).refused hblock
  exact hrefused

/-- A resize that fails leaves the vector and all others as they were, and so the raw blocks, the pool and
the profiler. It fails for a length that cannot be addressed, whatever the store, and otherwise only if the
backend refuses the storage. -/
theorem failed_resize_unchanged (hw : w.Reached) (ht : w.store.Trusted) (now i len : Nat) :
    (paddedBytes? len = none → ∀ s : Store, (Held.resize now len).run ⟨w.vectors i, s⟩ =
      ⟨.error (.error (.outOfMemory maxCount 0)), ⟨w.vectors i, s⟩, [.vectorTooLong len]⟩) ∧
    ∀ e, ((Held.resize now len).run ⟨w.vectors i, w.store⟩).result = .error (.error e) →
      (paddedBytes? len = none ∨ ∃ padded, paddedBytes? len = some padded ∧
        ((Store.resizeBlock ((w.vectors i).data.getD 0) padded).run w.store).result = .error (.error e)) ∧
      (w.step (.resize now i len)).vectors = w.vectors ∧ (w.step (.resize now i len)).raws = w.raws ∧
      (∀ i', (w.step (.resize now i len)).store.words (w.vectors i') = w.store.words (w.vectors i')) ∧
      (∀ j r, w.raws j = some r → ∀ k < r.size,
        (w.step (.resize now i len)).store.byte r.address k = w.store.byte r.address k) ∧
      (w.step (.resize now i len)).store.pool = w.store.pool ∧
      (w.step (.resize now i len)).store.profiler = w.store.profiler := by
  have hsecure := hw.secure
  refine ⟨fun hlen s => Held.resize_tooLong (hsecure.padded i) hlen s, fun e he => ?_⟩
  obtain ⟨t, hstep, hwhy⟩ := hsecure.resize_error he
  have hrefused : w.store.Refused t := by
    rcases hwhy with ⟨_, rfl⟩ | ⟨_, _, hblock⟩
    · exact ⟨rfl, rfl, .refl _⟩
    · exact hsecure.refused_by ht hblock
  have hkeeps := hrefused.keeps hsecure.sound
  rw [hstep]
  refine ⟨hwhy.imp And.left fun ⟨padded, hlen, hblock⟩ => ⟨padded, hlen, hblock.1⟩, rfl, rfl, fun i' => ?_,
    fun j r hr => ?_, hrefused.pool, hrefused.profiler⟩
  · exact hsecure.words_spared hkeeps.sound (hkeeps.spares 0) fun p n hp => hsecure.backs.pos hsecure.sound hp
  · exact hsecure.bytes_spared hkeeps.sound (hkeeps.spares 0) hr <|
      hsecure.backs.pos hsecure.sound (o := .raw j) (by rw [claim, hr, Option.map_some])

theorem failed_resize_unchanged_paired :
    ((Held.resize 0 40000).run ⟨paired.vectors 1, paired.store⟩).result = .error (.error (.outOfMemory 5008 4064)) ∧
      (paired.step (.resize 0 1 40000)).vectors = paired.vectors ∧
      (paired.step (.resize 0 1 40000)).store.pool = paired.store.pool := by
  have herror : ((Held.resize 0 40000).run ⟨paired.vectors 1, paired.store⟩).result =
      .error (.error (.outOfMemory 5008 4064)) := by decide +kernel
  obtain ⟨_, hfailed⟩ := failed_resize_unchanged (i := 1) paired_reached.1 paired_reached.2 0 40000
  obtain ⟨_, hvectors, _, _, _, hpool, _⟩ := hfailed _ herror
  exact ⟨herror, hvectors, hpool⟩

end Workspace

end BitStore
