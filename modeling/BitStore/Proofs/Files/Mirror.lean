import BitStore.Proofs.Files.Turns

/-! Runs of a mapped file against a plain list of bytes, which hears of the steps and their answers alone. -/

namespace BitStore

open BitStore.Action

namespace MappedFile

abbrev Event := Step × Except Stop Answer

def after (f : MappedFile) : List Step → MappedFile
  | [] => f
  | s :: rest => (s.action.run f).state.after rest

def events (f : MappedFile) : List Step → List Event
  | [] => []
  | s :: rest => (s, (s.action.run f).result) :: (s.action.run f).state.events rest

/-- What is known of a file from the answers: its bytes, how it is open, and whether the mapping came off it. -/
structure Mirror where
  bytes : Option (List UInt8)
  mode : Option MapMode
  torn : Bool
  deriving DecidableEq, Repr

namespace Mirror

def of (f : MappedFile) : Mirror := ⟨f.disk?, none, false⟩

def replaced (start : Nat) (data bytes : List UInt8) : List UInt8 :=
  bytes.mapIdx fun i b => if start ≤ i then data.getD (i - start) b else b

def fitted (len : Nat) (bytes : List UInt8) : List UInt8 := (List.range len).map fun i => bytes.getD i 0

/-- Whether a change of length failed past unmapping, which is any failure but the refusal of a read-only mapping. -/
def late : Stop → Bool
  | .error (.file (.truncating _) _) => false
  | _ => true

def heed (x : Mirror) : Event → Mirror
  | (.openAs mode, .ok _) => { x with mode := some mode, torn := false }
  | (.openAs _, .error _) => { x with mode := none }
  | (.close, _) => { x with mode := none }
  | (.write start data, .ok (.wrote .written)) => { x with bytes := x.bytes.map (replaced start data) }
  | (.truncate len, .ok .done) => { x with bytes := x.bytes.map (fitted len), torn := false }
  | (.truncate _, .error e) => { x with torn := x.torn || late e }
  | _ => x

def follow (x : Mirror) (events : List Event) : Mirror := events.foldl heed x

def shown (x : Mirror) : List UInt8 := if x.torn then [] else x.bytes.getD []

def Grants (x : Mirror) : Step → Prop
  | .openAs _ => x.bytes.isSome
  | .close => True
  | .write start data => x.mode = some .readWrite ∧ start + data.length ≤ x.shown.length
  | .truncate len => x.mode = some .readWrite ∧ len ≤ maxLen
  | .flush => x.mode.isSome

end Mirror

def Succeeded : Except Stop Answer → Prop
  | .ok .done | .ok (.wrote .written) => True
  | _ => False

structure Mirrors (f : MappedFile) (x : Mirror) : Prop where
  disk : f.disk? = x.bytes
  mode : f.mapping.map (·.mode) = x.mode
  mapping : ∀ m, f.mapping = some m → ∃ bytes, f.node = .regular bytes ∧
    m = .whole m.mode (if x.torn then 0 else bytes.length)

variable {f g : MappedFile} {x : Mirror} {s : Step} {r : Except Stop Answer} {m : Mapping} {bytes data : List UInt8}
  {start len : Nat}

section Bytes

lemma overwrite_eq_replaced (h : start + data.length ≤ bytes.length) :
    overwrite start data bytes = Mirror.replaced start data bytes := by
  have htake : (bytes.take start).length = start := List.length_take_of_le (by omega)
  apply List.ext_getElem?
  intro i
  rw [Mirror.replaced, List.getElem?_mapIdx, overwrite, List.append_assoc]
  rcases Nat.lt_or_ge i start with hbefore | hfrom
  · rw [List.getElem?_append_left (by omega), List.getElem?_take_of_lt hbefore]
    simp [Nat.not_le.mpr hbefore]
  · rw [List.getElem?_append_right (by omega), htake]
    rcases Nat.lt_or_ge (i - start) data.length with hin | hbeyond
    · have hi : i < bytes.length := by omega
      simp [List.getElem?_append_left hin, hfrom, hin, hi]
    · have hi : start + data.length + (i - start - data.length) = i := by omega
      rw [List.getElem?_append_right hbeyond, List.getElem?_drop, hi]
      simp [hfrom, List.getElem?_eq_none hbeyond]

lemma length_overwrite (h : start + data.length ≤ bytes.length) : (overwrite start data bytes).length = bytes.length := by
  rw [overwrite_eq_replaced h, Mirror.replaced, List.length_mapIdx]

lemma resized_eq_fitted (len : Nat) (bytes : List UInt8) : resized len bytes = Mirror.fitted len bytes := by
  apply List.ext_getElem
  · simp [resized, Mirror.fitted]
    omega
  · intro i hi hj
    have hlen : i < len := by simpa [Mirror.fitted] using hj
    simp only [resized, Mirror.fitted, List.getElem_map, List.getElem_range]
    grind

lemma length_resized (len : Nat) (bytes : List UInt8) : (resized len bytes).length = len := by
  rw [resized_eq_fitted, Mirror.fitted, List.length_map, List.length_range]

@[simp] lemma disk?_edit (f : MappedFile) (g : List UInt8 → List UInt8) (mapping : Option Mapping) :
    disk? ⟨f.path, f.node.edit g, mapping⟩ = f.disk?.map g := by
  cases hnode : f.node <;> simp [disk?, FileNode.edit, hnode]

end Bytes

section Runs

lemma Mirrors.covered (h : Mirrors f x) : f.Covered := by
  intro m hm
  obtain ⟨bytes, hnode, hwhole⟩ := h.mapping m hm
  refine ⟨bytes, m.mode, _, hnode, ?_, hwhole⟩
  split <;> omega

lemma Mirrors.mode_eq (h : Mirrors f x) (hm : f.mapping = some m) : x.mode = some m.mode := by
  rw [← h.mode, hm, Option.map_some]

lemma Mirrors.written (h : Mirrors f x) (hm : f.mapping = some m) (hin : start + data.length ≤ m.len) :
    Mirrors { f with node := f.node.edit (overwrite start data) }
      { x with bytes := x.bytes.map (Mirror.replaced start data) } := by
  obtain ⟨bytes, hnode, hwhole⟩ := h.mapping m hm
  have hfits := Nat.le_trans hin (h.covered.len_le hm hnode)
  refine ⟨?_, h.mode, fun m' hm' => ⟨overwrite start data bytes, by rw [hnode]; rfl, ?_⟩⟩
  · rw [disk?_edit, ← h.disk, disk?_regular hnode, Option.map_some, Option.map_some, overwrite_eq_replaced hfits]
  · obtain rfl := Option.some.inj (hm.symm.trans hm')
    rw [length_overwrite hfits]
    exact hwhole

lemma Mirrors.truncated (h : Mirrors f x) (hm : f.mapping = some m) (hmode : m.mode = .readWrite) (len : Nat) :
    Mirrors { f with node := f.node.edit (resized len), mapping := some (.whole .readWrite len) }
      { x with bytes := x.bytes.map (Mirror.fitted len), torn := false } := by
  obtain ⟨bytes, hnode, _⟩ := h.mapping m hm
  refine ⟨?_, (hmode ▸ h.mode_eq hm).symm, ?_⟩
  · rw [disk?_edit, ← h.disk, disk?_regular hnode, Option.map_some, Option.map_some, resized_eq_fitted]
  · rintro _ ⟨⟩
    exact ⟨resized len bytes, by rw [hnode]; rfl, by rw [length_resized]; rfl⟩

lemma Mirrors.heed (h : Mirrors f x) (ht : Turn f s r g) : Mirrors g (x.heed (s, r)) := by
  cases ht with
  | opened mode hnode => exact ⟨h.disk, rfl, by rintro _ ⟨⟩; exact ⟨_, hnode, rfl⟩⟩
  | notOpened mode e hdisk => exact ⟨h.disk, rfl, nofun⟩
  | closed => exact ⟨h.disk, rfl, nofun⟩
  | unopened hm hopen hclose =>
    cases s with
    | openAs mode => exact absurd rfl (hopen mode)
    | close => exact absurd rfl hclose
    | _ => exact h
  | kept w hm hw hnot =>
    cases w with
    | written => exact absurd rfl hw
    | _ => exact h
  | written hm hmode hin => exact h.written hm hin
  | readOnly len hm hmode =>
    have hx : x.heed (.truncate len, .error (.error (.file (.truncating f.path) .mappedReadOnly))) = x := by
      simp [Mirror.heed, Mirror.late]
    rw [hx]
    exact h
  | tooLong hm hmode hlen =>
    -- The old mapping is gone, and the file is as long as before: from here on the two lengths differ.
    obtain ⟨bytes, hnode, _⟩ := h.mapping _ hm
    refine ⟨h.disk, (hmode ▸ h.mode_eq hm).symm, ?_⟩
    rintro _ ⟨⟩
    exact ⟨bytes, hnode, by simp [Mirror.heed, Mirror.late, Mapping.whole]⟩
  | truncated hm hmode hlen => exact h.truncated hm hmode _
  | flushed hm => exact h

lemma Mirrors.shown (h : Mirrors f x) (hm : f.mapping = some m) :
    x.bytes.isSome ∧ f.view m = .ok x.shown ∧ m.len = x.shown.length := by
  obtain ⟨bytes, hnode, hwhole⟩ := h.mapping m hm
  have hbytes : x.bytes = some bytes := by rw [← h.disk, disk?_regular hnode]
  rw [hwhole, view_whole hnode (by split <;> omega), Mirror.shown, hbytes]
  cases htorn : x.torn <;> simp [Mapping.whole]

lemma Mirrors.grants (h : Mirrors f x) (ht : Turn f s r g) : Succeeded r ↔ x.Grants s := by
  cases ht with
  | opened mode hnode => simp [Succeeded, Mirror.Grants, ← h.disk, disk?_regular hnode]
  | notOpened mode e hdisk => simp [Succeeded, Mirror.Grants, ← h.disk, hdisk]
  | closed => simp [Succeeded, Mirror.Grants]
  | unopened hm hopen hclose =>
    have hx : x.mode = none := by rw [← h.mode, hm, Option.map_none]
    cases s with
    | openAs mode => exact absurd rfl (hopen mode)
    | close => exact absurd rfl hclose
    | _ => simp [Succeeded, Mirror.Grants, hx]
  | kept w hm hw hnot =>
    rw [Mirror.Grants, h.mode_eq hm, Option.some.injEq, ← (h.shown hm).2.2]
    cases w with
    | written => exact absurd rfl hw
    | _ => exact ⟨False.elim, hnot⟩
  | written hm hmode hin =>
    rw [Mirror.Grants, h.mode_eq hm, Option.some.injEq, ← (h.shown hm).2.2]
    exact ⟨fun _ => ⟨hmode, hin⟩, fun _ => trivial⟩
  | readOnly len hm hmode => simp [Succeeded, Mirror.Grants, h.mode_eq hm, hmode]
  | tooLong hm hmode hlen => simp [Succeeded, Mirror.Grants, hlen]
  | truncated hm hmode hlen => simp [Succeeded, Mirror.Grants, h.mode_eq hm, hmode, hlen]
  | flushed hm => simp [Succeeded, Mirror.Grants, h.mode_eq hm]

lemma Turn.failed (ht : Turn f s r g) {e : Stop} (hr : r = .error e) :
    (∃ e', e = .error e') ∧ g.node = f.node := by
  cases ht with
  | notOpened _ e' _ => exact ⟨⟨e', (Except.error.inj hr).symm⟩, rfl⟩
  | readOnly => exact ⟨⟨_, (Except.error.inj hr).symm⟩, rfl⟩
  | tooLong => exact ⟨⟨_, (Except.error.inj hr).symm⟩, rfl⟩
  | _ => cases hr

lemma Turn.read (ht : Turn f s r g) (hread : ∀ m, f.mapping = some m → m.mode = .read) : g.node = f.node := by
  cases ht with
  | written hm hmode _ => cases hmode.symm.trans (hread _ hm)
  | truncated hm hmode _ => cases hmode.symm.trans (hread _ hm)
  | _ => rfl

lemma mirrors_of (path : String) (node : FileNode) : Mirrors (ofNode path node) (.of (ofNode path node)) :=
  ⟨rfl, rfl, nofun⟩

lemma Mirrors.follow (h : Mirrors f x) (steps : List Step) : Mirrors (f.after steps) (x.follow (f.events steps)) := by
  induction steps generalizing f x with
  | nil => exact h
  | cons s steps ih =>
    obtain ⟨r, g, ⟨hr, hg⟩, hturn⟩ := turn h.covered s
    subst hr hg
    exact ih (h.heed hturn)

theorem run_mirrors (path : String) (node : FileNode) (steps : List Step) (s : Step) :
    let f := (ofNode path node).after steps
    let x := (Mirror.of (ofNode path node)).follow ((ofNode path node).events steps)
    let o := s.action.run f
    f.disk? = x.bytes ∧ f.mapping.map (·.mode) = x.mode ∧
    (∀ m, f.mapping = some m → x.bytes.isSome ∧ f.view m = .ok x.shown ∧ m.len = x.shown.length) ∧
    (Succeeded o.result ↔ x.Grants s) ∧
    (∀ e, o.result = .error e → (∃ e', e = .error e') ∧ o.state.node = f.node) ∧
    (x.mode = some .read → o.state.node = f.node) := by
  intro f x o
  have h : Mirrors f x := (mirrors_of path node).follow steps
  obtain ⟨r, g, ⟨hr, hg⟩, hturn⟩ := turn h.covered s
  subst hr hg
  refine ⟨h.disk, h.mode, fun m hm => h.shown hm, h.grants hturn, fun e he => hturn.failed he, fun hread => ?_⟩
  refine hturn.read fun m hm => ?_
  exact Option.some.inj ((h.mode_eq hm).symm.trans hread)

example : ((ofNode "a" (.regular [1, 2, 3])).after [.openAs .readWrite, .truncate 1, .truncate 3]).disk? =
    some [1, 0, 0] := by rfl

end Runs

end MappedFile

end BitStore
