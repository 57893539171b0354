import BitStore.Proofs.Store.Spacious
import BitStore.Proofs.Store.VectorBits

namespace BitStore

open BitStore.Action

namespace BitVector

def Reallocates (v : BitVector) (len : Nat) : Prop :=
  wordBytes? v.len ≠ wordBytes? len ∨ v.data.isSome ∧ v.reserved < reserved ⟨len, v.data⟩ ∨ v.data = none ∧ 0 < len

end BitVector

namespace Held

variable {v : BitVector} {s : Store} {now len old bytes padded : Nat}

lemma resize_run (hv : v.len + 64 ≤ maxCount) (hlen : len + 64 ≤ maxCount) (now : Nat) (s : Store) :
    ∃ old bytes, wordBytes? v.len = some old ∧ wordBytes? len = some bytes ∧
      (resize now len).run ⟨v, s⟩ =
        (if old = bytes && !needsStorage v len v.reserved (BitVector.reserved ⟨len, v.data⟩) then
          setVector { v with len := len }
        else restore now v len old bytes (BitVector.reserved ⟨len, v.data⟩)).run ⟨v, s⟩ := by
  have hpadded := BitVector.padded (v := ⟨len, v.data⟩) hlen
  obtain ⟨old, hold⟩ := wordBytes_of_padded (BitVector.padded hv)
  obtain ⟨bytes, hbytes⟩ := wordBytes_of_padded hpadded
  refine ⟨old, bytes, hold, hbytes, ?_⟩
  have hget : (Action.get : Action Held Held).run ⟨v, s⟩ = ⟨.ok ⟨v, s⟩, ⟨v, s⟩, []⟩ := rfl
  rw [resize, run_bind_ok hget, run_bind_ok (storageBytes_run hold (BitVector.padded hv)),
    run_bind_ok (storageBytes_run hbytes hpadded)]

lemma reallocates_iff (hold : wordBytes? v.len = some old) (hbytes : wordBytes? len = some bytes) :
    v.Reallocates len ↔ ¬(old = bytes && !needsStorage v len v.reserved (BitVector.reserved ⟨len, v.data⟩)) := by
  rw [BitVector.Reallocates, hold, hbytes, needsStorage]
  cases v.data <;> simp [imp_iff_not_or, Nat.pos_iff_ne_zero]

lemma resize_inPlace (hv : v.len + 64 ≤ maxCount) (hlen : len + 64 ≤ maxCount) (h : ¬v.Reallocates len) (now : Nat)
    (s : Store) : (resize now len).run ⟨v, s⟩ = ⟨.ok (), ⟨{ v with len := len }, s⟩, []⟩ := by
  obtain ⟨old, bytes, hold, hbytes, hrun⟩ := resize_run hv hlen now s
  rw [hrun, if_pos (not_not.mp fun hn => h ((reallocates_iff hold hbytes).mpr hn))]
  rfl

lemma resize_again (hv : v.Formed) (hlen : v.len = len) (now : Nat) :
    (resize now len).run ⟨v, s⟩ = ⟨.ok (), ⟨v, s⟩, []⟩ := by
  subst hlen
  refine resize_inPlace hv.fits hv.fits ?_ now s
  rintro (hwords | ⟨_, hreserved⟩ | ⟨hnone, hpos⟩)
  · exact hwords rfl
  · exact Nat.lt_irrefl _ hreserved
  · exact Nat.ne_of_gt hpos (hv.bare hnone)

lemma fits_of_resize_ok (hv : v.len + 64 ≤ maxCount) (hok : ((resize now len).run ⟨v, s⟩).result = .ok ()) :
    len + 64 ≤ maxCount := by
  cases hlen : paddedBytes? len with
  | none =>
    rw [resize_tooLong (BitVector.padded hv) hlen] at hok
    cases hok
  | some padded => exact (paddedBytes?_eq_some_iff.mp hlen).1

lemma restore_ok (hok : ((restore now v len old bytes padded).run ⟨v, s⟩).result = .ok ()) :
    ∃ q t profiler, (Store.resizeBlock (v.data.getD 0) padded).Yields s (.ok q) t ∧
      ((restore now v len old bytes padded).run ⟨v, s⟩).state = ⟨⟨len, some q⟩,
        { clearBits t q (padded / 8) (if v.data.isSome then min v.len len else 0) with profiler := profiler }⟩ ∧
      .vectorResized v.len len padded ∈ ((restore now v len old bytes padded).run ⟨v, s⟩).notes := by
  obtain ⟨q, _, hzoom, _⟩ := ok_of_bind hok
  cases hblock : (Store.resizeBlock (v.data.getD 0) padded).run s with
  | mk result t notes =>
    have hyields := yields_of_run hblock
    cases result with
    | error e => cases (yields_zoom hyields).1.symm.trans hzoom
    | ok q =>
      refine ⟨q, t, _, hyields, (restore_moves hyields now len old bytes).2, (yields_zoom hyields).notes_bind ?_⟩
      exact Yields.notes_bind ⟨rfl, rfl⟩ (notes_bind List.mem_cons_self)

end Held

namespace Workspace

variable {w : Workspace} {s t : Store} {v : BitVector} {notes : List Note} {now i j k p q len padded : Nat}

lemma Secure.formed (hw : w.Secure) (i : Nat) : (w.vectors i).Formed := ⟨hw.fits i, hw.bare i⟩

lemma Secure.moved_word (hw : w.Secure) (ht : w.store.Trusted) (hp : (w.vectors i).data = some p)
    (hblock : (Store.resizeBlock p padded).Yields w.store (.ok q) t) (hold : 8 * (j + 1) ≤ (w.vectors i).reserved)
    (hnew : 8 * (j + 1) ≤ padded) : t.word q j = w.store.word p j := by
  have hclaim := claim_vector hp
  obtain ⟨k, hk, hnames⟩ := hw.names (.vector i)
  rw [pointer_vector, hp, Option.getD_some] at hnames
  have hk := hk p _ hclaim
  obtain ⟨m, hm, htrades, hbytes⟩ := (Store.resizeBlock_settles hw.sound ht padded hnames).post hblock
  rcases hnames with hlive | ⟨hnull, _⟩
  -- The block may be larger than both; what moving keeps is said of bytes, so the word is put together of them.
  · refine Store.word_congr (hw.sound.aligned hlive) (htrades.sound.aligned htrades.trade.mem) fun b hb => ?_
    rw [htrades.sound.byte_eq htrades.trade.mem, hw.sound.byte_eq hlive, hbytes _ (by omega)]
  · exact absurd hnull (hw.backs.pos hw.sound hclaim)

lemma Secure.moved_bit (hw : w.Secure) (ht : w.store.Trusted) (hlen : len + 64 ≤ maxCount)
    (hblock : (Store.resizeBlock ((w.vectors i).data.getD 0) (BitVector.reserved ⟨len, some q⟩)).Yields w.store (.ok q) t)
    (hk : k < 64 * (len / 64 + 1)) :
    (Held.clearBits t q (BitVector.reserved ⟨len, some q⟩ / 8)
      (if (w.vectors i).data.isSome then min (w.vectors i).len len else 0)).bit ⟨len, some q⟩ k =
      (w.store.bit (w.vectors i) k && decide (k < min (w.vectors i).len len)) := by
  have hreserved : BitVector.reserved ⟨len, some q⟩ = 8 * (len / 64 + 1) := Store.reserved_eq hlen
  rw [hreserved] at hblock
  have hcount : BitVector.reserved ⟨len, some q⟩ / 8 = len / 64 + 1 := by rw [hreserved, Nat.mul_div_cancel_left _ (by decide)]
  rw [hcount, Store.bit, Option.elim_some, Store.bitAt_clearBits t q _ hk]
  cases hp : (w.vectors i).data with
  | none => simp [Store.bit, hp]
  | some p =>
    rw [hp, Option.getD_some] at hblock
    simp only [Option.isSome_some, if_true, Store.bit, hp, Option.elim_some]
    by_cases hkept : k < min (w.vectors i).len len
    · have hword : t.word q (k / 64) = w.store.word p (k / 64) := by
        refine hw.moved_word ht hp hblock ?_ (by omega)
        rw [Store.reserved_eq (hw.fits i)]
        omega
      rw [bitAt, bitAt, hword]
    · rw [decide_eq_false hkept, Bool.and_false, Bool.and_false]

lemma Secure.resize_moved (hw : w.Secure) (ht : w.store.Trusted) (hlen : len + 64 ≤ maxCount)
    (hmoves : (w.vectors i).Reallocates len)
    (hok : (Held.resize now len).run ⟨w.vectors i, w.store⟩ = ⟨.ok (), ⟨v, s⟩, notes⟩) :
    ∃ q t, (Store.resizeBlock ((w.vectors i).data.getD 0) (BitVector.reserved ⟨len, some q⟩)).Yields w.store (.ok q) t ∧
      v = ⟨len, some q⟩ ∧ .vectorResized (w.vectors i).len len (BitVector.reserved ⟨len, some q⟩) ∈ notes ∧
      ∀ k < 64 * (len / 64 + 1), s.bit v k =
        (w.store.bit (w.vectors i) k && decide (k < min (w.vectors i).len len)) := by
  obtain ⟨old, bytes, hold, hbytes, hrun⟩ := Held.resize_run (hw.fits i) hlen now w.store
  rw [if_neg ((Held.reallocates_iff hold hbytes).mp hmoves), hok] at hrun
  obtain ⟨q, t, profiler, hblock, hstate, hnote⟩ := Held.restore_ok (congrArg Outcome.result hrun.symm)
  rw [← hrun] at hstate hnote
  obtain ⟨rfl, rfl⟩ := Held.mk.inj hstate
  exact ⟨q, t, hblock, rfl, hnote, fun k hk => hw.moved_bit ht hlen hblock hk⟩

theorem resize_keeps_bits (hw : w.Reached) (ht : w.store.Trusted)
    (hok : (Held.resize now len).run ⟨w.vectors i, w.store⟩ = ⟨.ok (), ⟨v, s⟩, notes⟩) :
    v.len = len ∧
    (∀ k < min (w.vectors i).len len, ∃ b, w.store.getBit (w.vectors i) k = .ok b ∧ s.getBit v k = .ok b) ∧
    ((w.vectors i).Reallocates len →
      (∃ q t, (Store.resizeBlock ((w.vectors i).data.getD 0) v.reserved).Yields w.store (.ok q) t ∧ v.data = some q) ∧
      .vectorResized (w.vectors i).len len v.reserved ∈ notes ∧ 8 * (s.words v).length = v.reserved ∧
      (∀ j x k, (s.words v)[j]? = some x → k < 64 → min (w.vectors i).len len ≤ 64 * j + k → bitOf x k = false) ∧
      ∃ n, w.store.rank (w.vectors i) (min (w.vectors i).len len) = .ok n ∧ s.rank v len = .ok n) ∧
    (¬(w.vectors i).Reallocates len →
      s = w.store ∧ v.data = (w.vectors i).data ∧ notes = [] ∧
      s.words v = (w.store.words (w.vectors i)).take v.wordCount) ∧
    ∀ later, (Held.resize later len).run ⟨v, s⟩ = ⟨.ok (), ⟨v, s⟩, []⟩ := by
  have hsecure := hw.secure
  have hformed := hsecure.formed i
  have hlen := Held.fits_of_resize_ok hformed.fits (congrArg Outcome.result hok)
  by_cases hmoves : (w.vectors i).Reallocates len
  · obtain ⟨q, t, hblock, rfl, hnote, hbits⟩ := hsecure.resize_moved ht hlen hmoves hok
    have hnew : BitVector.Formed ⟨len, some q⟩ := ⟨hlen, fun hnone => absurd hnone (Option.some_ne_none q)⟩
    refine ⟨rfl, Store.getBit_agree hformed hnew fun k hk => ?_, fun _ => ⟨⟨q, t, hblock, rfl⟩, hnote,
      Store.length_words rfl hnew, fun j x k hx hk hkept => ?_, Store.rank_agree hformed hnew fun k hk => ?_⟩,
      fun hstays => absurd hmoves hstays, Held.resize_again hnew rfl⟩
    · have hk' := (lt_min_iff.mp hk).2
      rw [hbits k (by dsimp only at hk'; omega), decide_eq_true hk, Bool.and_true]
    · obtain ⟨hj, hbit⟩ := Store.words_bit hnew hx hk
      rw [hbit, hbits _ (by dsimp only at hj; omega), decide_eq_false (by omega), Bool.and_false]
    · exact hbits k (by dsimp only at hk; omega)
  · obtain ⟨_, hstate, rfl⟩ :=
      Outcome.mk.inj (hok.symm.trans (Held.resize_inPlace hformed.fits hlen hmoves now w.store))
    obtain ⟨rfl, rfl⟩ := Held.mk.inj hstate
    obtain ⟨_, hcovered, hempty⟩ : _ ∧ _ ∧ _ := by simpa only [BitVector.Reallocates, not_or] using hmoves
    have hsame : BitVector.Formed ⟨len, (w.vectors i).data⟩ := ⟨hlen, fun hnone => Nat.eq_zero_of_not_pos fun hpos => hempty ⟨hnone, hpos⟩⟩
    refine ⟨rfl, Store.getBit_agree hformed hsame fun k _ => rfl, fun h => absurd h hmoves,
      fun _ => ⟨rfl, rfl, rfl, Store.words_shrunk hformed hsame rfl fun hsome => ?_⟩, Held.resize_again hsame rfl⟩
    exact Nat.not_lt.mp fun hlt => hcovered ⟨hsome, hlt⟩

def trimmed : Workspace := (on .spacious 0).after
  [enablePage, .resize 0 0 100, .setWord 0 1 0xffffffffffffffff, .resize 0 0 70]

lemma trimmed_reached : trimmed.Reached ∧ trimmed.store.Trusted :=
  reached_spacious ⟨trivial, enablePage_low _, trivial, nofun, trivial, nofun, trivial, nofun, trivial⟩

theorem resize_keeps_bits_trimmed : trimmed.vectors 0 = ⟨70, some 4096⟩ ∧
    ∃ q s notes, (Held.resize 0 130).run ⟨⟨70, some 4096⟩, trimmed.store⟩ = ⟨.ok (), ⟨⟨130, some q⟩, s⟩, notes⟩ ∧
      (∀ j x k, (s.words ⟨130, some q⟩)[j]? = some x → k < 64 → 70 ≤ 64 * j + k → bitOf x k = false) ∧
      ∃ n, trimmed.store.rank ⟨70, some 4096⟩ 70 = .ok n ∧ s.rank ⟨130, some q⟩ 130 = .ok n := by
  have hvector : trimmed.vectors 0 = ⟨70, some 4096⟩ := by decide +kernel
  have hok : ((Held.resize 0 130).run ⟨trimmed.vectors 0, trimmed.store⟩).result = .ok () := by decide +kernel
  cases hrun : (Held.resize 0 130).run ⟨trimmed.vectors 0, trimmed.store⟩ with
  | mk result state notes =>
    rw [hrun] at hok
    obtain rfl : result = .ok () := hok
    have hkept := resize_keeps_bits trimmed_reached.1 trimmed_reached.2 hrun
    rw [hvector] at hkept hrun
    obtain ⟨hlen, _, hnew, _⟩ := hkept
    obtain ⟨⟨q, _, _, hdata⟩, _, _, hzeros, hrank⟩ := hnew (.inl (by decide))
    have hstate : state.vector = ⟨130, some q⟩ := by rw [← hlen, ← hdata]
    rw [hstate] at hzeros hrank
    exact ⟨hvector, q, state.store, notes, by rw [hrun, ← hstate], hzeros, hrank⟩

end Workspace

end BitStore
