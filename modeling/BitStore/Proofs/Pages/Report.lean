import BitStore.Pages.Region
import Mathlib.Data.List.Induction
import Mathlib.Tactic.Lemma

namespace BitStore

namespace HugePageInfo

def freeKey : List Char := "HugePages_Free:".toList

def sizeKey : List Char := "Hugepagesize:".toList

def lastValue (key : List Char) (lines : List (List Char)) : Option Nat :=
  ((lines.map keyAndValue).filter (·.1 = some key)).getLast?.bind (·.2)

def told (lines : List (List Char)) : HugePageInfo :=
  ⟨lastValue freeKey lines, (lastValue sizeKey lines).map (· * 1024)⟩

def Oversized (line : List Char) : Prop := ∃ n, keyAndValue line = (some sizeKey, some n) ∧ maxCount < n * 1024

variable {line : List Char} {lines : List (List Char)}

lemma lastValue_concat (key : List Char) (lines : List (List Char)) (line : List Char) :
    lastValue key (lines ++ [line]) =
      if (keyAndValue line).1 = some key then (keyAndValue line).2 else lastValue key lines := by
  rw [lastValue, List.map_append, List.filter_append]
  split
  · next hkey => simp [hkey]
  · next hkey => simp [hkey, lastValue]

lemma addLine_eq (info : HugePageInfo) (line : List Char) : info.addLine line =
    if (keyAndValue line).1 = some freeKey then .ok { info with free := (keyAndValue line).2 }
    else if (keyAndValue line).1 = some sizeKey then
      ((keyAndValue line).2.mapM fun n => Checked.mul n 1024).map fun size => { info with pageSize := size }
    else .ok info := by
  rw [addLine]
  cases keyAndValue line with
  | mk key value =>
    change (if key = some freeKey then _ else if key = some sizeKey then _ else _) = _
    split
    · rfl
    · split
      · cases value.mapM fun n => Checked.mul n 1024 <;> rfl
      · rfl

lemma freeKey_ne : freeKey ≠ sizeKey := fun h => absurd (String.toList_inj.mp h) (by decide)

lemma addLine_oversized (h : Oversized line) (info : HugePageInfo) : info.addLine line = .error .mulOverflow := by
  obtain ⟨n, hline, hlarge⟩ := h
  have hmul : Checked.mul n 1024 = .error .mulOverflow := if_neg (Nat.not_le.mpr hlarge)
  rw [addLine_eq, hline, if_neg fun h => freeKey_ne (Option.some.inj h).symm, if_pos rfl, Option.mapM_some, hmul]
  rfl

lemma addLine_told (h : ¬Oversized line) (lines : List (List Char)) :
    (told lines).addLine line = .ok (told (lines ++ [line])) := by
  rw [addLine_eq, told, told, lastValue_concat, lastValue_concat]
  cases hline : keyAndValue line with
  | mk key value =>
    by_cases hfree : key = some freeKey
    · subst hfree
      rw [if_pos rfl, if_pos rfl, if_neg fun h => freeKey_ne (Option.some.inj h)]
    · rw [if_neg hfree, if_neg hfree]
      split
      · next hsize =>
        cases value with
        | none => rfl
        | some n =>
          have hmul : Checked.mul n 1024 = .ok (n * 1024) := by
            refine Checked.mul_eq_ok_iff.mpr ⟨rfl, Nat.not_lt.mp fun hlarge => h ⟨n, ?_, hlarge⟩⟩
            rw [hline, show key = some sizeKey from hsize]
          rw [Option.mapM_some, hmul]
          rfl
      · rfl

lemma foldlM_told (h : ∀ line ∈ lines, ¬Oversized line) : lines.foldlM addLine blank = .ok (told lines) := by
  induction lines using List.reverseRecOn with
  | nil => rfl
  | append_singleton lines line ih =>
    obtain ⟨hlines, hline⟩ := List.forall_mem_append.mp h
    rw [List.foldlM_append, ih hlines]
    change (told lines).addLine line >>= pure = _
    rw [addLine_told (hline line (List.mem_singleton_self line))]
    rfl

lemma foldlM_oversized (h : ∃ line ∈ lines, Oversized line) : lines.foldlM addLine blank = .error .mulOverflow := by
  induction lines using List.reverseRecOn with
  | nil => simp at h
  | append_singleton lines line ih =>
    rw [List.foldlM_append]
    by_cases hlines : ∃ line ∈ lines, Oversized line
    · rw [ih hlines]
      rfl
    · have hline : Oversized line := by
        obtain ⟨x, hx, hlarge⟩ := h
        rcases List.mem_append.mp hx with hx | hx
        · exact absurd ⟨x, hx, hlarge⟩ hlines
        · exact List.mem_singleton.mp hx ▸ hlarge
      rw [foldlM_told fun x hx hlarge => hlines ⟨x, hx, hlarge⟩]
      change (told lines).addLine line >>= pure = _
      rw [addLine_oversized hline]
      rfl

end HugePageInfo

namespace Machine

variable {m : Machine}

def report? (m : Machine) : Option (List (List Char)) :=
  (m.meminfo.bind String.fromUTF8?).map fun text => HugePageInfo.lines text.toList

def told (m : Machine) : HugePageInfo := m.report?.elim .blank HugePageInfo.told

def Oversized (m : Machine) : Prop := ∃ lines ∈ m.report?, ∃ line ∈ lines, HugePageInfo.Oversized line

lemma hugePageInfo_eq (m : Machine) :
    m.hugePageInfo = m.report?.mapM fun lines => lines.foldlM HugePageInfo.addLine .blank := by
  rw [hugePageInfo, report?]
  cases m.meminfo.bind String.fromUTF8? <;> rfl

lemma hugePageInfo_oversized (h : m.Oversized) : m.hugePageInfo = .error .mulOverflow := by
  obtain ⟨lines, hreport, hlines⟩ := h
  rw [hugePageInfo_eq, Option.mem_def.mp hreport, Option.mapM_some, HugePageInfo.foldlM_oversized hlines]
  rfl

lemma hugePageInfo_told (h : ¬m.Oversized) : m.hugePageInfo = .ok (m.report?.map HugePageInfo.told) := by
  rw [hugePageInfo_eq]
  cases hreport : m.report? with
  | none => rfl
  | some lines =>
    rw [Option.mapM_some, HugePageInfo.foldlM_told fun line hline hlarge => h ⟨lines, hreport, line, hline, hlarge⟩]
    rfl

lemma hugePageSize_oversized (h : m.Oversized) : m.hugePageSize = .error .mulOverflow := by
  rw [hugePageSize, hugePageInfo_oversized h]
  rfl

lemma hugePageSize_told (h : ¬m.Oversized) :
    m.hugePageSize = .ok (m.told.pageSize.getD defaultHugePageSize) := by
  rw [hugePageSize, hugePageInfo_told h, told]
  cases m.report? <;> rfl

lemma freeHugeBytes_oversized (h : m.Oversized) : m.freeHugeBytes = .error .mulOverflow := by
  rw [freeHugeBytes, hugePageInfo_oversized h]
  rfl

lemma freeHugeBytes_told (h : ¬m.Oversized) : m.freeHugeBytes =
    match m.told with
    | ⟨some free, some size⟩ => (Checked.mul free size).map some
    | _ => .ok none := by
  rw [freeHugeBytes, hugePageInfo_told h, told]
  cases m.report? with
  | none => rfl
  | some lines =>
    rw [Option.map_some, Option.elim_some]
    rcases HugePageInfo.told lines with ⟨_ | free, _ | size⟩
    · rfl
    · rfl
    · rfl
    · cases Checked.mul free size <;> rfl

end Machine

end BitStore
