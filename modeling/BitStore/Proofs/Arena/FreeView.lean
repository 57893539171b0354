import BitStore.Arena.FreeIndex
import Mathlib.Tactic.Lemma

namespace BitStore

namespace FreeBlock

lemma before_iff (a b : FreeBlock) :
    a.before b = true ↔ a.size < b.size ∨
      a.size = b.size ∧ (a.offset < b.offset ∨ a.offset = b.offset ∧ a.handle < b.handle) := by
  simp [before]

lemma before_trans {a b c : FreeBlock} (hab : a.before b = true) (hbc : b.before c = true) :
    a.before c = true := by
  rw [before_iff] at *
  grind

lemma eq_or_before {a b : FreeBlock} (h : ¬a.before b = true) : a = b ∨ b.before a = true := by
  rw [before_iff] at h ⊢
  cases a
  cases b
  simp only [FreeBlock.mk.injEq] at h ⊢
  grind

end FreeBlock

namespace FreeIndex

def filedBytes : List FreeBlock → Nat
  | [] => 0
  | e :: es => e.size + filedBytes es

lemma filedBytes_perm {es fs : List FreeBlock} (h : es.Perm fs) : filedBytes es = filedBytes fs := by
  induction h with
  | nil => rfl
  | cons e _ ih => rw [filedBytes, filedBytes, ih]
  | swap e f es => simp only [filedBytes]; omega
  | trans _ _ ih₁ ih₂ => exact ih₁.trans ih₂

structure Files (f : FreeIndex) (es : List FreeBlock) : Prop where
  sorted : f.entries.Pairwise fun a b => a.before b = true
  perm : f.entries.Perm es
  bytes : f.bytes = filedBytes es

lemma place_perm (e : FreeBlock) (l : List FreeBlock) : (place e l).Perm (e :: l) := by
  induction l with
  | nil => exact .refl _
  | cons x xs ih =>
    rw [place]
    split
    · exact .refl _
    · exact (ih.cons x).trans (.swap e x xs)

lemma place_sorted {e : FreeBlock} {l : List FreeBlock} (hl : l.Pairwise fun a b => a.before b = true)
    (he : e ∉ l) : (place e l).Pairwise fun a b => a.before b = true := by
  induction l with
  | nil => exact List.pairwise_singleton _ _
  | cons x xs ih =>
    obtain ⟨hx, hxs⟩ := List.pairwise_cons.mp hl
    obtain ⟨hex, hexs⟩ := not_or.mp (mt List.mem_cons.mpr he)
    rw [place]
    split
    · next h =>
      refine List.pairwise_cons.mpr ⟨?_, hl⟩
      intro y hy
      rcases List.mem_cons.mp hy with rfl | hy
      · exact h
      · exact FreeBlock.before_trans h (hx y hy)
    · next h =>
      refine List.pairwise_cons.mpr ⟨?_, ih hxs hexs⟩
      intro y hy
      rcases List.mem_cons.mp ((place_perm e xs).mem_iff.mp hy) with rfl | hy
      · exact (FreeBlock.eq_or_before h).resolve_left hex
      · exact hx y hy

variable {f : FreeIndex} {es fs : List FreeBlock} {e : FreeBlock} {size : Nat}

lemma Files.empty : FreeIndex.empty.Files [] := ⟨.nil, .refl _, rfl⟩

lemma Files.congr (hf : f.Files es) (hp : es.Perm fs) : f.Files fs :=
  ⟨hf.sorted, hf.perm.trans hp, hf.bytes.trans (filedBytes_perm hp)⟩

lemma Files.mem_iff (hf : f.Files es) : e ∈ f.entries ↔ e ∈ es := hf.perm.mem_iff

lemma Files.insert (hf : f.Files es) (he : e ∉ es) (hb : filedBytes es + e.size ≤ maxCount) :
    ∃ g, f.insert e = .ok g ∧ g.Files (e :: es) := by
  have hout : e ∉ f.entries := by rwa [hf.mem_iff]
  refine ⟨⟨place e f.entries, f.bytes + e.size⟩, ?_, place_sorted hf.sorted hout, ?_, ?_⟩
  · rw [FreeIndex.insert, if_neg hout, Checked.add, if_pos (by rwa [hf.bytes])]
    rfl
  · exact (place_perm e f.entries).trans (hf.perm.cons e)
  · rw [hf.bytes, filedBytes, Nat.add_comm]

lemma Files.remove (hf : f.Files (e :: es)) : ∃ g, f.remove e = .ok g ∧ g.Files es := by
  have hin : e ∈ f.entries := hf.mem_iff.mpr (List.mem_cons_self ..)
  have hbytes : f.bytes = e.size + filedBytes es := hf.bytes
  refine ⟨⟨f.entries.erase e, f.bytes - e.size⟩, ?_, hf.sorted.erase e, ?_, ?_⟩
  · rw [FreeIndex.remove, if_pos hin, Checked.sub, if_pos (by omega)]
    rfl
  · simpa using hf.perm.erase e
  · rw [hbytes, Nat.add_sub_cancel_left]

lemma Files.bestFit_some {h : Handle} (hf : f.Files es) (hh : f.bestFit size = some h) :
    ∃ e ∈ es, e.handle = h ∧ size ≤ e.size ∧
      ∀ x ∈ es, size ≤ x.size → x = e ∨ e.before x = true := by
  obtain ⟨e, hfind, rfl⟩ := Option.map_eq_some_iff.mp hh
  obtain ⟨hsize, xs, ys, hsplit, hxs⟩ := List.find?_eq_some_iff_append.mp hfind
  have hs := hf.sorted
  rw [hsplit, List.pairwise_append, List.pairwise_cons] at hs
  refine ⟨e, hf.mem_iff.mp (by simp [hsplit]), rfl, by simpa using hsize, ?_⟩
  intro x hx hle
  rw [← hf.mem_iff, hsplit, List.mem_append, List.mem_cons] at hx
  rcases hx with hx | rfl | hx
  · simpa [hle] using hxs x hx
  · exact Or.inl rfl
  · exact Or.inr (hs.2.1.1 x hx)

lemma Files.bestFit_none (hf : f.Files es) (hh : f.bestFit size = none) : ∀ e ∈ es, e.size < size := by
  intro e he
  rw [bestFit, Option.map_eq_none_iff, List.find?_eq_none] at hh
  simpa using hh e (hf.mem_iff.mpr he)

end FreeIndex

end BitStore
