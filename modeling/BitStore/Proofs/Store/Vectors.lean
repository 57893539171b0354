import BitStore.Store.Resize
import BitStore.Proofs.Store.Backends

namespace BitStore

open BitStore.Action

lemma paddedBytes?_eq_some_iff {bits padded : Nat} :
    paddedBytes? bits = some padded ↔ bits + 64 ≤ maxCount ∧ (bits + 64) / 64 * 8 = padded := by
  rw [paddedBytes?, Checked.add?]
  split
  · next h => simp only [Option.map_some, Option.some.injEq, h, true_and]
  · next h => simp only [Option.map_none, reduceCtorEq, h, false_and]

def BitVector.reserved (v : BitVector) : Nat := (paddedBytes? v.len).getD 0

lemma BitVector.empty_fits : BitVector.empty.len + 64 ≤ maxCount := by decide

lemma BitVector.padded {v : BitVector} (hv : v.len + 64 ≤ maxCount) : paddedBytes? v.len = some v.reserved := by
  have hlen := paddedBytes?_eq_some_iff.mpr ⟨hv, rfl⟩
  rw [reserved, hlen]
  rfl

lemma BitVector.words_le_reserved (v : BitVector) : 8 * v.wordCount ≤ v.reserved := by
  rw [wordCount, reserved]
  split
  · cases paddedBytes? v.len with
    | none => exact Nat.le_refl 0
    | some n => exact Nat.mul_div_le n 8
  · exact Nat.zero_le _

lemma Store.Sound.clearBits {s : Store} {b : Backend} {p k : Nat} (hs : s.Sound) (hp : (s.ledger b).live p k)
    (count first : Nat) (hk : 8 * count ≤ k) : s.Writes (Held.clearBits s p count first) b p := by
  rw [Held.clearBits]
  split
  · have hmask := hs.setWords (i := first / 64) (n := 1) hp (fun _ => s.word p (first / 64) &&& lowMask (first % 64))
      (by omega)
    have hp' := (hmask.live b).symm ▸ hp
    exact hmask.trans (hmask.sound.setWords hp' _ (by omega))
  · exact hs.writes_self b p

namespace Profiler

def told (now old new : Nat) : Action Profiler Unit :=
  if old ≠ new then record now ((new : Int) - old) else pure ()

lemma told_ne_error (p : Profiler) (now old new : Nat) (e : StoreError) :
    ((told now old new).run p).result ≠ .error (.error e) := by
  rw [told]
  split
  · rw [record, Action.run, update]
    cases p.recorded now ((new : Int) - old) <;> simp [bind, Except.bind, halt, pure, Except.pure]
  · simp [Action.run, pure, Action.pure]

end Profiler

namespace Store

lemma onMemory_profiler (s : Store) (p : Nat) (f : Memory → Nat → Memory) :
    (s.onMemory p f).profiler = s.profiler := by
  rw [onMemory]
  split <;> rfl

end Store

namespace Held

variable {σ : Type} {x : σ} {v : BitVector} {s t : Store} {now len bits p : Nat}

inductive Resized (now : Nat) (v : BitVector) (s : Store) (len : Nat) : Except Stop Unit → Held → Prop
  | tooLong : paddedBytes? len = none → Resized now v s len (.error (.error (.outOfMemory maxCount 0))) ⟨v, s⟩
  | inPlace {oldPadded padded : Nat} : paddedBytes? v.len = some oldPadded → paddedBytes? len = some padded →
      needsStorage v len oldPadded padded = false → wordBytes? v.len = wordBytes? len →
      Resized now v s len (.ok ()) ⟨{ v with len := len }, s⟩
  | refused {padded : Nat} {e : Stop} {t : Store} : paddedBytes? len = some padded →
      (Store.resizeBlock (v.data.getD 0) padded).Yields s (.error e) t → Resized now v s len (.error e) ⟨v, t⟩
  | moved {old bytes padded q : Nat} {r : Except Stop Unit} {t : Store} {profiler : Profiler} :
      wordBytes? v.len = some old → wordBytes? len = some bytes → paddedBytes? len = some padded →
      (Store.resizeBlock (v.data.getD 0) padded).Yields s (.ok q) t →
      (Profiler.told now old bytes).Yields t.profiler r profiler →
      Resized now v s len r ⟨⟨len, some q⟩,
        { clearBits t q (padded / 8) (if v.data.isSome then min v.len len else 0) with profiler := profiler }⟩

inductive Cleared (now : Nat) (v : BitVector) (s : Store) : Except Stop Unit → Held → Prop
  | refused {e : Stop} {t : Store} {p : Nat} : v.data = some p → (Store.giveBack p).Yields s (.error e) t →
      Cleared now v s (.error e) ⟨v, t⟩
  | done {old : Nat} {r : Except Stop Unit} {t : Store} {profiler : Profiler} : wordBytes? v.len = some old →
      (v.data.elim (pure ()) Store.giveBack).Yields s (.ok ()) t →
      (Profiler.told now old 0).Yields t.profiler r profiler →
      Cleared now v s r ⟨.empty, { t with profiler := profiler }⟩

lemma clearBits_profiler (s : Store) (p count first : Nat) : (clearBits s p count first).profiler = s.profiler := by
  rw [clearBits]
  split
  · rw [Store.setWords, Store.onMemory_profiler, Store.setWords, Store.onMemory_profiler]
  · rfl

lemma storageBytes_run {old padded : Nat} (hw : wordBytes? bits = some old) (hp : paddedBytes? bits = some padded) :
    (storageBytes bits : Action σ (Nat × Nat)).run x = ⟨.ok (old, padded), x, []⟩ := by
  rw [storageBytes, hw, hp]
  rfl

lemma storageBytes_yields {old padded : Nat} (hw : wordBytes? bits = some old)
    (hp : paddedBytes? bits = some padded) :
    (storageBytes bits : Action σ (Nat × Nat)).Yields x (.ok (old, padded)) x :=
  yields_of_run (storageBytes_run hw hp)

lemma wordBytes_of_padded {padded : Nat} (h : paddedBytes? bits = some padded) :
    ∃ old, wordBytes? bits = some old := by
  obtain ⟨hle, _⟩ := paddedBytes?_eq_some_iff.mp h
  refine ⟨(bits + 63) / 64 * 8, ?_⟩
  rw [wordBytes?, Checked.add?, if_pos (by omega)]
  rfl

lemma storageBytes_tooLong (h : paddedBytes? bits = none) : (storageBytes bits : Action σ (Nat × Nat)).run x =
    ⟨.error (.error (.outOfMemory maxCount 0)), x, [.vectorTooLong bits]⟩ := by
  rw [storageBytes, h]
  cases wordBytes? bits <;> rfl

lemma resize_tooLong {oldPadded : Nat} (hv : paddedBytes? v.len = some oldPadded) (h : paddedBytes? len = none)
    (s : Store) : (resize now len).run ⟨v, s⟩ =
      ⟨.error (.error (.outOfMemory maxCount 0)), ⟨v, s⟩, [.vectorTooLong len]⟩ := by
  obtain ⟨old, hold⟩ := wordBytes_of_padded hv
  have hget : (Action.get : Action Held Held).run ⟨v, s⟩ = ⟨.ok ⟨v, s⟩, ⟨v, s⟩, []⟩ := rfl
  simp only [resize, run_bind, hget, storageBytes_run hold hv, storageBytes_tooLong h, List.nil_append]

lemma told_onStore (now old new : Nat) (v : BitVector) (s : Store) :
    (if old ≠ new then onStore (Store.onProfiler (Profiler.record now ((new : Int) - old)))
      else pure () : Action Held Unit).Yields ⟨v, s⟩ ((Profiler.told now old new).run s.profiler).result
        ⟨v, { s with profiler := ((Profiler.told now old new).run s.profiler).state }⟩ := by
  rw [Profiler.told]
  split <;> exact ⟨rfl, rfl⟩

lemma restore_moves {q padded : Nat} (hblock : (Store.resizeBlock (v.data.getD 0) padded).Yields s (.ok q) t)
    (now len old bytes : Nat) : (restore now v len old bytes padded).Yields ⟨v, s⟩
      ((Profiler.told now old bytes).run t.profiler).result
      ⟨⟨len, some q⟩, { clearBits t q (padded / 8) (if v.data.isSome then min v.len len else 0) with
        profiler := ((Profiler.told now old bytes).run t.profiler).state }⟩ := by
  apply (yields_zoom hblock).bind
  rw [← clearBits_profiler t q (padded / 8) (if v.data.isSome then min v.len len else 0)]
  exact told_onStore now old bytes ⟨len, some q⟩ _

lemma restore_resized {old bytes padded : Nat} (hold : wordBytes? v.len = some old)
    (hbytes : wordBytes? len = some bytes) (hlen : paddedBytes? len = some padded) (now : Nat) (s : Store) :
    ∃ r h, (restore now v len old bytes padded).Yields ⟨v, s⟩ r h ∧ Resized now v s len r h := by
  cases hblock : (Store.resizeBlock (v.data.getD 0) padded).run s with
  | mk result t notes =>
    have hyields := yields_of_run hblock
    cases result with
    | error e => exact ⟨_, _, (yields_zoom hyields).bind_error, .refused hlen hyields⟩
    | ok q => exact ⟨_, _, restore_moves hyields now len old bytes, .moved hold hbytes hlen hyields ⟨rfl, rfl⟩⟩

theorem resize_resized {oldPadded : Nat} (hv : paddedBytes? v.len = some oldPadded) (now len : Nat) (s : Store) :
    ∃ r h, (resize now len).Yields ⟨v, s⟩ r h ∧ Resized now v s len r h := by
  obtain ⟨old, hold⟩ := wordBytes_of_padded hv
  cases hlen : paddedBytes? len with
  | none =>
    refine ⟨_, _, ?_, .tooLong hlen⟩
    rw [Yields, resize_tooLong hv hlen]
    exact ⟨rfl, rfl⟩
  | some padded =>
    obtain ⟨bytes, hbytes⟩ := wordBytes_of_padded hlen
    have hstart {r : Except Stop Unit} {h : Held} (hrest : (if old = bytes && !needsStorage v len oldPadded padded then
          setVector { v with len := len } else restore now v len old bytes padded).Yields ⟨v, s⟩ r h) :
        (resize now len).Yields ⟨v, s⟩ r h := by
      apply yields_get.bind
      apply (storageBytes_yields hold hv).bind
      apply (storageBytes_yields hbytes hlen).bind
      exact hrest
    by_cases hstays : (old = bytes && !needsStorage v len oldPadded padded) = true
    · rw [if_pos hstays] at hstart
      simp only [Bool.and_eq_true, Bool.not_eq_true', decide_eq_true_eq] at hstays
      exact ⟨_, _, hstart ⟨rfl, rfl⟩, .inPlace hv hlen hstays.2 (by rw [hold, hbytes, hstays.1])⟩
    · rw [if_neg hstays] at hstart
      obtain ⟨r, h, hrest, hresized⟩ := restore_resized hold hbytes hlen now s
      exact ⟨r, h, hstart hrest, hresized⟩

lemma told_empty (now old : Nat) (v : BitVector) (s : Store) :
    (do
      setVector .empty
      if 0 < old then onStore (Store.onProfiler (Profiler.record now (-(old : Int)))) : Action Held Unit).Yields
        ⟨v, s⟩ ((Profiler.told now old 0).run s.profiler).result
        ⟨.empty, { s with profiler := ((Profiler.told now old 0).run s.profiler).state }⟩ := by
  have htold := told_onStore now old 0 .empty s
  simp only [Int.natCast_zero, Int.zero_sub, ← Nat.pos_iff_ne_zero] at htold
  exact htold

lemma clear_done {old oldPadded : Nat} (hold : wordBytes? v.len = some old)
    (hv : paddedBytes? v.len = some oldPadded)
    (hgone : (v.data.elim (pure ()) Store.giveBack).Yields s (.ok ()) t) (now : Nat) :
    (clear now).Yields ⟨v, s⟩ ((Profiler.told now old 0).run t.profiler).result
      ⟨.empty, { t with profiler := ((Profiler.told now old 0).run t.profiler).state }⟩ := by
  have hrest := told_empty now old v t
  apply yields_get.bind
  apply (storageBytes_yields hold hv).bind
  cases hdata : v.data with
  | none =>
    rw [hdata] at hgone
    obtain ⟨_, rfl⟩ := hgone
    exact hrest
  | some p =>
    rw [hdata] at hgone
    exact (yields_zoom hgone).bind hrest

theorem clear_cleared {oldPadded : Nat} (hv : paddedBytes? v.len = some oldPadded) (now : Nat) (s : Store) :
    ∃ r h, (clear now).Yields ⟨v, s⟩ r h ∧ Cleared now v s r h := by
  obtain ⟨old, hold⟩ := wordBytes_of_padded hv
  cases hgone : (v.data.elim (pure ()) Store.giveBack : Action Store Unit).run s with
  | mk result t notes =>
    have hyields : (v.data.elim (pure ()) Store.giveBack : Action Store Unit).Yields s result t := by
      rw [Yields, hgone]
      exact ⟨rfl, rfl⟩
    cases result with
    | ok _ => exact ⟨_, _, clear_done hold hv hyields now, .done hold hyields ⟨rfl, rfl⟩⟩
    | error e =>
      cases hdata : v.data with
      | none =>
        rw [hdata] at hyields
        cases hyields.1
      | some p =>
        rw [hdata] at hyields
        refine ⟨_, _, ?_, .refused hdata hyields⟩
        apply yields_get.bind
        apply (storageBytes_yields hold hv).bind
        simp only [hdata]
        exact (yields_zoom hyields).bind_error

end Held

end BitStore
