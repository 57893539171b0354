import BitStore.Arena.Audit
import BitStore.Proofs.Arena.History

namespace BitStore

open Segment

namespace Arena

variable {a : Arena} {l pre post : List Node} {n : Node}

def AuditState.behind (pre : List Node) : AuditState where
  expected := total (pre.map Node.segment)
  prev := Chain.lastHandle none pre
  prevFree := pre.getLast?.any (·.free)
  freeBlocks := pre.countP (·.free)
  blocks := pre.length

lemma behind_concat (pre : List Node) (n : Node) :
    AuditState.behind (pre ++ [n]) =
      ⟨total (pre.map Node.segment) + n.size, some n.handle, n.free, pre.countP (·.free) + n.free.toNat,
        pre.length + 1⟩ := by
  have hcount : [n].countP (·.free) = n.free.toNat := by
    cases hn : n.free <;> simp [hn]
  simp only [AuditState.behind, List.map_append, total_append, Chain.lastHandle_append, List.countP_append,
    hcount, List.getLast?_concat, Option.any_some, List.length_append]
  rfl

lemma Layout.entry_mem (ha : a.Layout l) (hn : n ∈ l) : n.entry ∈ a.free.entries ↔ n.free = true := by
  rw [ha.free.mem_iff, mem_filed]
  constructor
  · rintro ⟨m, hm, hfree, he⟩
    have hmn : m = n := List.inj_on_of_nodup_map ha.chain.handles hm hn (congrArg FreeBlock.handle he)
    rwa [← hmn]
  · intro hfree
    exact ⟨n, hn, hfree, rfl⟩

lemma auditBlock_none {s : AuditState} {h : Handle} {b : Block} (hprev : b.prev = s.prev)
    (hoff : b.offset = s.expected) (hmin : minBlockSize ≤ b.size) (hmod : b.size % alignment = 0)
    (hapart : (b.free && s.prevFree) = false)
    (hfree : FreeBlock.ofBlock h b ∈ a.free.entries ↔ b.free = true)
    (hindex : a.chain.byOffset[b.offset]? = some h) : a.auditBlock s h b = none := by
  have hsize : ¬(b.size < minBlockSize ∨ b.size % alignment ≠ 0) := by simp [Nat.not_lt.mpr hmin, hmod]
  have hfiled : b.free = decide (FreeBlock.ofBlock h b ∈ a.free.entries) := by
    rw [Bool.eq_iff_iff, decide_eq_true_eq, hfree]
  rw [auditBlock, if_neg (not_not.mpr hprev), if_neg (not_not.mpr hoff), if_neg hsize, if_neg (by simp [hapart]),
    if_neg (not_not.mpr hfiled), if_neg (not_not.mpr hindex)]

lemma Layout.apart_behind (ha : a.Layout (pre ++ n :: post)) :
    (n.free && (AuditState.behind pre).prevFree) = false := by
  have hchain := ha.apart
  rw [List.map_append, List.map_cons] at hchain
  rcases pre.eq_nil_or_concat' with rfl | ⟨before, p, rfl⟩
  · exact Bool.and_false _
  · have hpn := (List.isChain_append.mp hchain).2.2 p.segment (by simp) n.segment rfl
    rw [behind_concat, Bool.and_comm]
    exact hpn

lemma Layout.auditBlock_none (ha : a.Layout (pre ++ n :: post)) :
    a.auditBlock (.behind pre) n.handle (n.block (Chain.lastHandle none pre) (Chain.firstHandle none post)) =
      none := by
  have hmem : n ∈ pre ++ n :: post := by simp
  obtain ⟨hmin, hmod⟩ := ha.sized n hmem
  have hindex : a.chain.byOffset[n.offset]? = some n.handle :=
    (ha.chain.index _ _).mpr (List.mem_map.mpr ⟨n, hmem, rfl⟩)
  exact Arena.auditBlock_none rfl ha.tiles.offset hmin hmod ha.apart_behind (ha.entry_mem hmem) hindex

lemma auditEnd_none (ha : a.Layout l) : a.auditEnd (.behind l) = none := by
  have hstop : (AuditState.behind l).expected = a.top := ha.top_eq
  have hlast : a.chain.last = (AuditState.behind l).prev := ha.chain.last
  have hcount : (AuditState.behind l).freeBlocks = a.free.entries.length := by
    rw [ha.free.perm.length_eq, filed, List.length_map, ← List.countP_eq_length_filter]
    rfl
  have hblocks : (AuditState.behind l).blocks = a.chain.size := ha.chain.size.symm
  rw [auditEnd, if_neg (not_not.mpr hstop), if_neg (not_not.mpr hlast), if_neg (not_not.mpr hcount),
    if_neg (not_not.mpr hblocks)]

lemma auditFrom_none (ha : a.Layout (pre ++ post)) :
    a.auditFrom (.behind pre) (Chain.links (Chain.lastHandle none pre) none post) = .ok none := by
  induction post generalizing pre with
  | nil =>
    rw [List.append_nil] at ha
    exact congrArg Except.ok (auditEnd_none ha)
  | cons n rest ih =>
    have hend := ha.end_le (n := n) (by simp)
    have htop := ha.top_le_maxCount
    have hoff : n.offset = total (pre.map Node.segment) := ha.tiles.offset
    have hrest : a.auditFrom (.behind (pre ++ [n])) (Chain.links (Chain.lastHandle none (pre ++ [n])) none rest) =
        .ok none := ih (by rwa [← List.append_cons])
    rw [behind_concat, Chain.lastHandle_append, ← hoff] at hrest
    rw [Chain.links, auditFrom, ha.auditBlock_none]
    simp only [Node.block_offset, Node.block_size, Node.block_free,
      Checked.add_eq_ok_iff.mpr ⟨rfl, Nat.le_trans hend htop⟩]
    exact hrest

lemma Layout.audit (ha : a.Layout l) : a.audit = .ok none := by
  rw [Arena.audit, ha.chain.toList]
  exact auditFrom_none (show a.Layout ([] ++ l) from ha)

theorem audit_after {a : Arena} (ha : a.Fresh) (calls : List Call) :
    (a.after calls).audit = .ok none ∧
      ∃ l, (a.after calls).chain.toList = .ok (Chain.links none none l) ∧ (a.after calls).Layout l := by
  obtain ⟨_, l, hl, _⟩ := run_layout ha.layout calls
  exact ⟨hl.audit, l, hl.chain.toList, hl⟩

theorem audit_after_page :
    page.Fresh ∧ (page.after [.allocate 100, .allocate 40, .allocate 40, .giveBack 4096, .giveBack 4240,
      .resize 4200 0, .giveBack 4200, .giveBack 4200, .giveBack 4136, .resize 0 5000, .allocate 300]).audit =
        .ok none :=
  ⟨page_fresh, (audit_after page_fresh _).1⟩

end Arena

end BitStore
