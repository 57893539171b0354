import BitStore.Store.Resize
import BitStore.Proofs.Store.Vectors
import Mathlib.Data.Nat.Count

namespace BitStore

structure BitVector.Formed (v : BitVector) : Prop where
  fits : v.len + 64 ≤ maxCount
  bare : v.data = none → v.len = 0

def bitAt (f : Nat → UInt64) (k : Nat) : Bool := (f (k / 64)).toBitVec.getLsbD (k % 64)

variable {f g : Nat → UInt64} {p q : Nat → Bool} {w : UInt64} {k m n : Nat}

section Counts

lemma count_same {P Q : Nat → Prop} [DecidablePred P] [DecidablePred Q] (hbelow : ∀ j < n, Q j ↔ P j) :
    Nat.count Q n = Nat.count P n :=
  Nat.le_antisymm (Nat.count_mono_left fun j hj => (hbelow j hj).mp) (Nat.count_mono_left fun j hj => (hbelow j hj).mpr)

lemma count_eq_of_agree (hmn : m ≤ n) (hsame : ∀ k < m, q k = p k) (hnone : ∀ k, m ≤ k → k < n → q k = false) :
    Nat.count (fun k => q k) n = Nat.count (fun k => p k) m := by
  obtain ⟨d, rfl⟩ := Nat.exists_eq_add_of_le hmn
  have hrest : Nat.count (fun k => q (m + k)) d = 0 :=
    Nat.count_iff_forall_not.mpr fun k hk => by simp [hnone (m + k) (by omega) (by omega)]
  rw [Nat.count_add, hrest, Nat.add_zero]
  exact count_same fun k hk => by rw [hsame k hk]

end Counts

section Words

lemma bitOf_eq (w : UInt64) (hk : k < 64) : bitOf w k = w.toBitVec.getLsbD k := by
  have hmod : k % 18446744073709551616 = k := Nat.mod_eq_of_lt (by omega)
  have hshift : (w >>> UInt64.ofNat k).toBitVec = w.toBitVec >>> k := by
    simp [Nat.mod_eq_of_lt hk, hmod]
  have hlow : (w >>> UInt64.ofNat k &&& 1).toBitVec = (BitVec.ofBool (w.toBitVec.getLsbD k)).setWidth 64 := by
    rw [UInt64.toBitVec_and, hshift]
    refine (BitVec.and_one_eq_setWidth_ofBool_getLsbD ..).trans ?_
    rw [BitVec.getLsbD_ushiftRight, Nat.add_zero]
  rw [bitOf, Bool.eq_iff_iff, beq_iff_eq, ← UInt64.toBitVec_inj, hlow]
  cases w.toBitVec.getLsbD k <;> decide

lemma getLsbD_lowMask : ∀ n < 64, ∀ k < 64, (lowMask n).toBitVec.getLsbD k = decide (k < n) := by
  decide +kernel

lemma getLsbD_masked (w : UInt64) (hm : m < 64) (hk : k < 64) :
    (w &&& lowMask m).toBitVec.getLsbD k = (w.toBitVec.getLsbD k && decide (k < m)) := by
  rw [UInt64.toBitVec_and, BitVec.getLsbD_and, getLsbD_lowMask m hm k hk]

lemma popCount_eq (w : UInt64) : popCount w = Nat.count (fun k => w.toBitVec.getLsbD k) 64 := by
  simp [popCount, Nat.count]

lemma popCount_masked (w : UInt64) (hm : m < 64) :
    popCount (w &&& lowMask m) = Nat.count (fun k => w.toBitVec.getLsbD k) m := by
  rw [popCount_eq]
  refine count_eq_of_agree (by omega) (fun k hk => ?_) fun k hk hlt => ?_
  · rw [getLsbD_masked w hm (by omega), decide_eq_true hk, Bool.and_true]
  · rw [getLsbD_masked w hm hlt, decide_eq_false (Nat.not_lt.mpr hk), Bool.and_false]

lemma bitAt_word (f : Nat → UInt64) (n : Nat) (hk : k < 64) : bitAt f (64 * n + k) = (f n).toBitVec.getLsbD k := by
  have hdiv : (64 * n + k) / 64 = n := by omega
  have hmod : (64 * n + k) % 64 = k := by omega
  rw [bitAt, hdiv, hmod]

lemma count_word (f : Nat → UInt64) (n : Nat) (hm : m ≤ 64) :
    Nat.count (fun k => bitAt f (64 * n + k)) m = Nat.count (fun k => (f n).toBitVec.getLsbD k) m :=
  count_same fun k hk => by rw [bitAt_word f n (by omega)]

lemma popCounts_append (ws us : List UInt64) : popCounts (ws ++ us) = popCounts ws + popCounts us := by
  induction ws with
  | nil => exact (Nat.zero_add _).symm
  | cons w ws ih => rw [List.cons_append, popCounts, popCounts, ih, Nat.add_assoc]

lemma popCounts_words (f : Nat → UInt64) (n : Nat) :
    popCounts ((List.range n).map f) = Nat.count (fun k => bitAt f k) (64 * n) := by
  induction n with
  | zero => rfl
  | succ n ih =>
    rw [List.range_succ, List.map_append, popCounts_append, ih, Nat.mul_succ, Nat.count_add, count_word f n (Nat.le_refl 64),
      ← popCount_eq]
    rfl

end Words

namespace Store

variable {s t : Store} {v u : BitVector} {p i j : Nat}

lemma memoryAt_onMemory (s : Store) (p : Nat) (f : Memory → Nat → Memory) :
    (s.onMemory p f).memoryAt p = (f (s.memoryAt p).1 (s.memoryAt p).2, (s.memoryAt p).2) := by
  cases ha : s.inPool p with
  | none =>
    have hstays : inPool { s with heap := { s.heap with memory := f s.heap.memory p } } p = none := ha
    simp only [onMemory, memoryAt, ha, hstays]
  | some a =>
    obtain ⟨_, hin⟩ := Option.filter_eq_some_iff.mp ha
    have hstays : inPool { s with pool := some { a with memory := f a.memory (p - a.region.base) } } p =
        some { a with memory := f a.memory (p - a.region.base) } := Option.filter_eq_some_iff.mpr ⟨rfl, hin⟩
    simp only [onMemory, memoryAt, ha, hstays]

lemma word_setWords (s : Store) (p i : Nat) (f : Nat → UInt64) (n j : Nat) :
    (s.setWords p i f n).word p j = if i ≤ j ∧ j < i + n then f (j - i) else s.word p j := by
  rw [word, setWords, memoryAt_onMemory]
  dsimp only
  rw [Memory.word_setWords]
  by_cases hin : i ≤ j ∧ j < i + n
  · rw [if_pos hin, if_pos (by omega), Nat.add_sub_add_left]
  · rw [if_neg hin, if_neg (by omega)]
    rfl

lemma reserved_eq (hv : v.len + 64 ≤ maxCount) : v.reserved = 8 * (v.len / 64 + 1) := by
  rw [BitVector.reserved, paddedBytes?_eq_some_iff.mpr ⟨hv, rfl⟩, Option.getD_some]
  omega

lemma wordCount_eq (hp : v.data = some p) (hv : v.len + 64 ≤ maxCount) : v.wordCount = v.len / 64 + 1 := by
  rw [BitVector.wordCount, hp, BitVector.padded hv, reserved_eq hv]
  simp

lemma words_eq (hp : v.data = some p) (hv : v.len + 64 ≤ maxCount) :
    s.words v = (List.range (v.len / 64 + 1)).map (s.word p) := by
  simp only [words, hp, wordCount_eq hp hv]

def bit (s : Store) (v : BitVector) (k : Nat) : Bool := v.data.elim false fun p => bitAt (s.word p) k

lemma vectorWord_eq (hp : v.data = some p) (hv : v.Formed) (hk : k < v.len) :
    s.vectorWord v (k / 64) = .ok (s.word p (k / 64)) := by
  simp only [vectorWord, hp, wordCount_eq hp hv.fits]
  rw [if_pos (by omega)]

lemma getBit_eq (hv : v.Formed) (hk : k < v.len) :
    s.getBit v k = .ok (s.bit v k) := by
  cases hp : v.data with
  | none => exact absurd (hv.bare hp) (Nat.ne_of_gt (Nat.zero_lt_of_lt hk))
  | some p =>
    rw [getBit, if_pos hk, vectorWord_eq hp hv hk, bit, hp, Option.elim_some, bitAt,
      ← bitOf_eq _ (Nat.mod_lt k (by decide))]
    rfl

lemma rank_eq (hv : v.Formed) (hk : k ≤ v.len) :
    s.rank v k = .ok (Nat.count (fun j => s.bit v j) k) := by
  cases hp : v.data with
  | none => simp [rank, hk, words, bit, hp]
  | some p =>
    have hin : k / 64 < v.len / 64 + 1 := by omega
    have htake : ((List.range (v.len / 64 + 1)).map (s.word p)).take (k / 64) =
        (List.range (k / 64)).map (s.word p) := by
      rw [← List.map_take, List.take_range, Nat.min_eq_left (by omega)]
    -- Whole words first, then the bits of the word that `k` is in.
    have hcount : Nat.count (fun j => bitAt (s.word p) j) k = Nat.count (fun j => bitAt (s.word p) j) (64 * (k / 64)) +
        Nat.count (fun j => (s.word p (k / 64)).toBitVec.getLsbD j) (k % 64) := by
      rw [← count_word _ _ (by omega), ← Nat.count_add, Nat.div_add_mod]
    simp only [bit, hp, Option.elim_some]
    rw [rank, if_pos hk, words_eq hp hv.fits, hcount]
    simp [hin, htake, popCounts_words, Nat.le_of_lt hin, popCount_masked _ (Nat.mod_lt k (by decide : 0 < 64))]

lemma words_bit (hv : v.Formed) {x : UInt64} (hx : (s.words v)[j]? = some x) (hk : k < 64) :
    j ≤ v.len / 64 ∧ bitOf x k = s.bit v (64 * j + k) := by
  cases hp : v.data with
  | none => simp [words, hp] at hx
  | some p =>
    rw [words_eq hp hv.fits, List.getElem?_map, Option.map_eq_some_iff] at hx
    obtain ⟨_, hj, rfl⟩ := hx
    obtain ⟨hlt, rfl⟩ := List.getElem?_eq_some_iff.mp hj
    rw [List.length_range] at hlt
    rw [List.getElem_range, bitOf_eq _ hk, bit, hp, Option.elim_some, bitAt_word _ _ hk]
    exact ⟨by omega, rfl⟩

lemma length_words (hp : v.data.isSome) (hv : v.Formed) : 8 * (s.words v).length = v.reserved := by
  obtain ⟨p, hp⟩ := Option.isSome_iff_exists.mp hp
  rw [words_eq hp hv.fits, List.length_map, List.length_range, reserved_eq hv.fits]

lemma words_shrunk (hv : v.Formed) (hu : u.Formed) (hdata : u.data = v.data)
    (hle : v.data.isSome → u.reserved ≤ v.reserved) : s.words u = (s.words v).take u.wordCount := by
  cases hp : v.data with
  | none => simp [words, hdata, hp]
  | some p =>
    have hup := hdata.trans hp
    rw [hp, reserved_eq hv.fits, reserved_eq hu.fits] at hle
    have hle := hle rfl
    rw [words_eq hup hu.fits, words_eq hp hv.fits, wordCount_eq hup hu.fits, ← List.map_take, List.take_range,
      Nat.min_eq_left (by omega)]

lemma getBit_agree (hv : v.Formed) (hu : u.Formed) (hbits : ∀ k < min v.len u.len, t.bit u k = s.bit v k) :
    ∀ k < min v.len u.len, ∃ b, s.getBit v k = .ok b ∧ t.getBit u k = .ok b := by
  intro k hk
  refine ⟨s.bit v k, getBit_eq hv (by omega), ?_⟩
  rw [getBit_eq hu (by omega), hbits k hk]

lemma rank_agree (hv : v.Formed) (hu : u.Formed)
    (hbits : ∀ k < u.len, t.bit u k = (s.bit v k && decide (k < min v.len u.len))) :
    ∃ n, s.rank v (min v.len u.len) = .ok n ∧ t.rank u u.len = .ok n := by
  refine ⟨_, rank_eq hv (Nat.min_le_left ..), ?_⟩
  rw [rank_eq hu (Nat.le_refl _)]
  refine congrArg Except.ok (count_eq_of_agree (Nat.min_le_right ..) (fun k hk => ?_) fun k hk hlt => ?_)
  · rw [hbits k (by omega), decide_eq_true hk, Bool.and_true]
  · rw [hbits k hlt, decide_eq_false (Nat.not_lt.mpr hk), Bool.and_false]

lemma bitAt_clearBits (s : Store) (p first : Nat) {count : Nat} (hk : k < 64 * count) :
    bitAt ((Held.clearBits s p count first).word p) k = (bitAt (s.word p) k && decide (k < first)) := by
  rw [Held.clearBits, bitAt, bitAt]
  split
  · next hin =>
    have hmod := Nat.mod_lt k (by decide : 0 < 64)
    rw [word_setWords, word_setWords]
    -- Words before the first one are not touched, that one is masked, and those behind it are filled.
    rcases Nat.lt_trichotomy (k / 64) (first / 64) with hlt | heq | hgt
    · rw [if_neg (by omega), if_neg (by omega), decide_eq_true (by omega), Bool.and_true]
    · have hplace : decide (k % 64 < first % 64) = decide (k < first) := by
        rw [decide_eq_decide]
        omega
      rw [if_neg (by omega), if_pos (by omega), getLsbD_masked _ (Nat.mod_lt first (by decide)) hmod, hplace, heq]
    · rw [if_pos (by omega), decide_eq_false (by omega), Bool.and_false]
      exact BitVec.getLsbD_zero
  · next hout => rw [decide_eq_true (by omega), Bool.and_true]

end Store

end BitStore
