import Std.Data.HashMap

/-! Memory as 64-bit words, zero where nothing was written. The lowest byte of a word is at its first address. -/

namespace BitStore

structure Memory where
  words : Std.HashMap Nat UInt64

namespace Memory

def empty : Memory := ⟨∅⟩

def word (m : Memory) (i : Nat) : UInt64 := m.words.getD i 0

def setWord (m : Memory) (i : Nat) (w : UInt64) : Memory := ⟨m.words.insert i w⟩

def shift (a : Nat) : UInt64 := UInt64.ofNat (8 * (a % 8))

def byte (m : Memory) (a : Nat) : UInt8 := (m.word (a / 8) >>> shift a).toUInt8

def withByte (w : UInt64) (a : Nat) (b : UInt8) : UInt64 :=
  (w &&& ~~~(0xff <<< shift a)) ||| (b.toUInt64 <<< shift a)

def setByte (m : Memory) (a : Nat) (b : UInt8) : Memory :=
  m.setWord (a / 8) (withByte (m.word (a / 8)) a b)

def setBytes (m : Memory) (a : Nat) (f : Nat → UInt8) : Nat → Memory
  | 0 => m
  | n + 1 => (m.setBytes a f n).setByte (a + n) (f n)

def setWords (m : Memory) (i : Nat) (f : Nat → UInt64) : Nat → Memory
  | 0 => m
  | n + 1 => (m.setWords i f n).setWord (i + n) (f n)

def copyWords (m : Memory) (source target n : Nat) : Memory :=
  m.setWords target (fun k => m.word (source + k)) n

def clear (m : Memory) (i n : Nat) : Memory :=
  (m.setWords i (fun _ => 0) (n / 8)).setBytes (8 * (i + n / 8)) (fun _ => 0) (n % 8)

theorem word_setWord (m : Memory) (i j : Nat) (w : UInt64) :
    (m.setWord i w).word j = if i = j then w else m.word j := by
  simp [word, setWord, Std.HashMap.getD_insert]

theorem word_setWords (m : Memory) (i : Nat) (f : Nat → UInt64) (n j : Nat) :
    (m.setWords i f n).word j = if i ≤ j ∧ j < i + n then f (j - i) else m.word j := by
  induction n with
  | zero => rw [setWords, if_neg (by omega)]
  | succ n ih =>
    rw [setWords, word_setWord, ih]
    by_cases h : i + n = j
    · subst h; simp
    · grind

theorem byte_setWord (m : Memory) (i a : Nat) (w : UInt64) :
    (m.setWord i w).byte a = if i = a / 8 then (w >>> shift a).toUInt8 else m.byte a := by
  rw [byte, word_setWord]
  split <;> rfl

theorem getLsbD_byte (w : UInt64) (a k : Nat) (hk : k < 8) :
    (w >>> shift a).toUInt8.toBitVec.getLsbD k = w.toBitVec.getLsbD (8 * (a % 8) + k) := by
  have hs : 8 * (a % 8) < 64 := by omega
  have hm : 8 * (a % 8) % 18446744073709551616 = 8 * (a % 8) := Nat.mod_eq_of_lt (by omega)
  simp [shift, hk, Nat.mod_eq_of_lt hs, hm]

theorem getElem_lowByte (k : Nat) (hk : k < 64) : (255#64)[k] = decide (k < 8) := by
  revert k
  decide

theorem getLsbD_withByte (w : UInt64) (a : Nat) (b : UInt8) (k : Nat) (hk : k < 64) :
    (withByte w a b).toBitVec.getLsbD k =
      if k / 8 = a % 8 then b.toBitVec.getLsbD (k % 8) else w.toBitVec.getLsbD k := by
  have hs : 8 * (a % 8) < 64 := by omega
  have hm : 8 * (a % 8) % 18446744073709551616 = 8 * (a % 8) := Nat.mod_eq_of_lt (by omega)
  have hw : (withByte w a b).toBitVec.getLsbD k =
      (w.toBitVec.getLsbD k &&
          (decide (k < 8 * (a % 8)) || !decide (k - 8 * (a % 8) < 8)) ||
        !decide (k < 8 * (a % 8)) && b.toBitVec.getLsbD (k - 8 * (a % 8))) := by
    simp [withByte, shift, hk, Nat.mod_eq_of_lt hs, hm, getElem_lowByte]
  rw [hw]
  by_cases h : k / 8 = a % 8
  · have hlow : ¬k < 8 * (a % 8) := by omega
    have hin : k - 8 * (a % 8) < 8 := by omega
    have hmod : k - 8 * (a % 8) = k % 8 := by omega
    simp [h, hlow, hmod, Nat.mod_lt]
  · by_cases hlow : k < 8 * (a % 8)
    · simp [h, hlow]
    · have hout : ¬k - 8 * (a % 8) < 8 := by omega
      have hb : b.toBitVec.getLsbD (k - 8 * (a % 8)) = false :=
        BitVec.getLsbD_of_ge _ _ (Nat.not_lt.1 hout)
      simp [h, hlow, hout, hb]

theorem byte_setByte (m : Memory) (a c : Nat) (b : UInt8) :
    (m.setByte a b).byte c = if a = c then b else m.byte c := by
  rw [setByte, byte_setWord]
  by_cases hw : a / 8 = c / 8
  · rw [if_pos hw]
    apply UInt8.toBitVec_inj.1
    apply BitVec.eq_of_getLsbD_eq
    intro k hk
    rw [getLsbD_byte _ _ _ hk, getLsbD_withByte _ _ _ _ (by omega)]
    by_cases hc : a = c
    · subst hc
      rw [if_pos (by omega), if_pos rfl]
      congr 1
      omega
    · rw [if_neg (by omega), if_neg hc, byte, getLsbD_byte _ _ _ hk, hw]
  · rw [if_neg hw, if_neg (fun h => hw (by rw [h]))]

theorem byte_setWords (m : Memory) (i : Nat) (f : Nat → UInt64) (n a : Nat) :
    (m.setWords i f n).byte a =
      if i ≤ a / 8 ∧ a / 8 < i + n then (f (a / 8 - i) >>> shift a).toUInt8 else m.byte a := by
  rw [byte, word_setWords]
  split <;> rfl

theorem byte_copyWords (m : Memory) (source target n a : Nat) :
    (m.copyWords source target n).byte a =
      if target ≤ a / 8 ∧ a / 8 < target + n then m.byte (8 * (source + (a / 8 - target)) + a % 8)
      else m.byte a := by
  rw [copyWords, byte_setWords]
  have hdiv : (8 * (source + (a / 8 - target)) + a % 8) / 8 = source + (a / 8 - target) := by omega
  have hmod : (8 * (source + (a / 8 - target)) + a % 8) % 8 = a % 8 := by omega
  simp only [byte, shift, hdiv, hmod]

theorem byte_setBytes (m : Memory) (a : Nat) (f : Nat → UInt8) (n c : Nat) :
    (m.setBytes a f n).byte c = if a ≤ c ∧ c < a + n then f (c - a) else m.byte c := by
  induction n with
  | zero => rw [setBytes, if_neg (by omega)]
  | succ n ih =>
    rw [setBytes, byte_setByte, ih]
    by_cases h : a + n = c
    · subst h; simp
    · grind

theorem byte_clear (m : Memory) (i n a : Nat) :
    (m.clear i n).byte a = if 8 * i ≤ a ∧ a < 8 * i + n then 0 else m.byte a := by
  rw [clear, byte_setBytes]
  by_cases hlast : 8 * (i + n / 8) ≤ a ∧ a < 8 * (i + n / 8) + n % 8
  · rw [if_pos hlast, if_pos (by omega)]
  · rw [if_neg hlast, byte_setWords]
    by_cases hwhole : i ≤ a / 8 ∧ a / 8 < i + n / 8
    · rw [if_pos hwhole, if_pos (by omega)]
      simp
    · rw [if_neg hwhole, if_neg (by omega)]

theorem getLsbD_word (m : Memory) (i k : Nat) :
    (m.word i).toBitVec.getLsbD k = (k < 64 && (m.byte (8 * i + k / 8)).toBitVec.getLsbD (k % 8)) := by
  by_cases hk : k < 64
  · have hdiv : (8 * i + k / 8) / 8 = i := by omega
    have hbit : 8 * ((8 * i + k / 8) % 8) + k % 8 = k := by omega
    rw [byte, getLsbD_byte _ _ _ (Nat.mod_lt _ (by decide)), hdiv, hbit, decide_eq_true hk, Bool.true_and]
  · rw [BitVec.getLsbD_of_ge _ _ (Nat.not_lt.1 hk), decide_eq_false hk, Bool.false_and]

theorem word_eq_of_bytes {m m' : Memory} {i j : Nat}
    (h : ∀ k < 8, m.byte (8 * i + k) = m'.byte (8 * j + k)) : m.word i = m'.word j := by
  apply UInt64.toBitVec_inj.1
  apply BitVec.eq_of_getLsbD_eq
  intro k hk
  rw [getLsbD_word, getLsbD_word, h (k / 8) (by omega)]

end Memory

end BitStore
