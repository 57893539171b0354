import BitStore.MappedFile
import BitStore.Proofs.Outcome

namespace BitStore

open BitStore.Action

def Mapping.whole (mode : MapMode) (len : Nat) : Mapping :=
  ⟨mode, if len = 0 then none else some MappedFile.address, len⟩

namespace MappedFile

inductive Step where
  | openAs (mode : MapMode)
  | close
  | write (start : Nat) (data : List UInt8)
  | truncate (len : Nat)
  | flush
  deriving DecidableEq, Repr

inductive Answer where
  | done
  | wrote (w : WriteAnswer)
  | unopened
  deriving DecidableEq, Repr

def through (use : Mapping → Action MappedFile Answer) : Action MappedFile Answer := do
  match (← Action.get).mapping with
  | some m => use m
  | none => return .unopened

def Step.action : Step → Action MappedFile Answer
  | openAs mode => do
    MappedFile.openAs mode
    return .done
  | close => do
    MappedFile.close
    return .done
  | write start data => through fun m => do return .wrote (← MappedFile.write m start data)
  | truncate len => through fun m => do
    MappedFile.truncate m len
    return .done
  | flush => through fun _ => do
    MappedFile.flush
    return .done

def Covered (f : MappedFile) : Prop :=
  ∀ m, f.mapping = some m → ∃ bytes mode n, f.node = .regular bytes ∧ n ≤ bytes.length ∧ m = .whole mode n

inductive Turn (f : MappedFile) : Step → Except Stop Answer → MappedFile → Prop
  | opened {bytes : List UInt8} (mode : MapMode) : f.node = .regular bytes →
      Turn f (.openAs mode) (.ok .done) { f with mapping := some (.whole mode bytes.length) }
  | notOpened (mode : MapMode) (e : StoreError) : f.disk? = none →
      Turn f (.openAs mode) (.error (.error e)) { f with mapping := none }
  | closed : Turn f .close (.ok .done) { f with mapping := none }
  | unopened {s : Step} : f.mapping = none → (∀ mode, s ≠ .openAs mode) → s ≠ .close → Turn f s (.ok .unopened) f
  | kept {m : Mapping} {start : Nat} {data : List UInt8} (w : WriteAnswer) : f.mapping = some m → w ≠ .written →
      ¬(m.mode = .readWrite ∧ start + data.length ≤ m.len) → Turn f (.write start data) (.ok (.wrote w)) f
  | written {m : Mapping} {start : Nat} {data : List UInt8} : f.mapping = some m → m.mode = .readWrite →
      start + data.length ≤ m.len →
      Turn f (.write start data) (.ok (.wrote .written)) { f with node := f.node.edit (overwrite start data) }
  | readOnly {m : Mapping} (len : Nat) : f.mapping = some m → m.mode = .read →
      Turn f (.truncate len) (.error (.error (.file (.truncating f.path) .mappedReadOnly))) f
  | tooLong {m : Mapping} {len : Nat} : f.mapping = some m → m.mode = .readWrite → maxLen < len →
      Turn f (.truncate len) (.error (.error (.file (.truncatingTo f.path len) .lengthTooLarge)))
        { f with mapping := some (.whole .readWrite 0) }
  | truncated {m : Mapping} {len : Nat} : f.mapping = some m → m.mode = .readWrite → len ≤ maxLen →
      Turn f (.truncate len) (.ok .done)
        { f with node := f.node.edit (resized len), mapping := some (.whole .readWrite len) }
  | flushed {m : Mapping} : f.mapping = some m → Turn f .flush (.ok .done) f

variable {f g : MappedFile} {m : Mapping} {mode : MapMode} {s : Step} {bytes data : List UInt8} {n start len : Nat}

section Turns

lemma disk?_regular (hf : f.node = .regular bytes) : f.disk? = some bytes := by rw [disk?, hf]

lemma Covered.len_le (hf : f.Covered) (hm : f.mapping = some m) (hnode : f.node = .regular bytes) :
    m.len ≤ bytes.length := by
  obtain ⟨bytes', mode, n, hnode', hn, rfl⟩ := hf m hm
  obtain rfl := FileNode.regular.inj (hnode.symm.trans hnode')
  exact hn

lemma unmap_whole (hm : f.mapping = some (.whole mode n)) :
    (unmap (.whole mode n)).Yields f (.ok ()) { f with mapping := some (.whole mode 0) } := by
  obtain ⟨path, node, _⟩ := f
  obtain rfl := hm
  cases n <;> exact ⟨rfl, rfl⟩

lemma map_regular (hf : f.node = .regular bytes) (mode : MapMode) (n : Nat) :
    (map mode n).Yields f (.ok ()) { f with mapping := some (.whole mode n) } := by
  obtain ⟨path, _, mapping⟩ := f
  obtain rfl := hf
  cases n <;> exact ⟨rfl, rfl⟩

lemma map_directory (hf : f.node = .directory) (mode : MapMode) :
    (map mode FileNode.directoryLen).Yields f
      (.error (.error (.file (.mapping f.path FileNode.directoryLen) .noDevice))) f := by
  obtain ⟨path, _, mapping⟩ := f
  obtain rfl := hf
  exact ⟨rfl, rfl⟩

lemma view_whole (hf : f.node = .regular bytes) (hn : n ≤ bytes.length) :
    f.view (.whole mode n) = .ok (bytes.take n) := by
  cases n with
  | zero => rfl
  | succ n => simp [view, Mapping.whole, disk?_regular hf, hn]

lemma close_covered (hf : f.Covered) : close.Yields f (.ok ()) { f with mapping := none } := by
  obtain ⟨path, node, mapping⟩ := f
  cases mapping with
  | none => exact ⟨rfl, rfl⟩
  | some m =>
    obtain ⟨_, mode, n, _, _, rfl⟩ := hf m rfl
    cases n <;> exact ⟨rfl, rfl⟩

lemma through_some {use : Mapping → Action MappedFile Answer} {r : Except Stop Answer} (hm : f.mapping = some m)
    (hx : (use m).Yields f r g) : (through use).Yields f r g := by
  refine yields_get.bind ?_
  rw [hm]
  exact hx

lemma through_none (hm : f.mapping = none) (use : Mapping → Action MappedFile Answer) :
    (through use).Yields f (.ok .unopened) f := by
  refine yields_get.bind ?_
  rw [hm]
  exact yields_pure _

lemma open_regular (hf : f.Covered) (hnode : f.node = .regular bytes) (mode : MapMode) :
    (openAs mode).Yields f (.ok ()) { f with mapping := some (.whole mode bytes.length) } := by
  obtain ⟨path, _, mapping⟩ := f
  obtain rfl := hnode
  exact (close_covered hf).bind (yields_get.bind (map_regular rfl mode bytes.length))

lemma open_unreadable (hf : f.Covered) (hdisk : f.disk? = none) (mode : MapMode) :
    ∃ e, (openAs mode).Yields f (.error (.error e)) { f with mapping := none } := by
  obtain ⟨path, node, mapping⟩ := f
  have hopen := close_covered hf
  cases node with
  | missing => exact ⟨_, hopen.bind (yields_get.bind (yields_fail _))⟩
  | directory =>
    cases mode with
    | read => exact ⟨_, hopen.bind (yields_get.bind (map_directory rfl .read))⟩
    | readWrite => exact ⟨_, hopen.bind (yields_get.bind (yields_fail _))⟩
  | regular bytes => cases hdisk

lemma read_whole (hnode : f.node = .regular bytes) (hn : n ≤ bytes.length) :
    (Action.read fun f => f.view (.whole mode n)).Yields f (.ok (bytes.take n)) f :=
  yields_read (view_whole hnode hn)

lemma write_inside (hnode : f.node = .regular bytes) (hn : n ≤ bytes.length) (hin : start + data.length ≤ n) :
    (write (.whole .readWrite n) start data).Yields f (.ok .written)
      { f with node := f.node.edit (overwrite start data) } := by
  rw [write, if_neg fun h => h rfl]
  refine (read_whole hnode hn).bind ?_
  rw [List.length_take_of_le hn, if_neg (Nat.not_lt.mpr hin)]
  cases n with
  | zero =>
    -- An empty mapping takes no bytes but the empty list, which is not handed to the file.
    obtain rfl : start = 0 := by omega
    obtain rfl := List.eq_nil_of_length_eq_zero (by omega : data.length = 0)
    have hsame : f.node.edit (overwrite 0 []) = f.node := by rw [hnode]; rfl
    rw [hsame]
    exact yields_pure _
  | succ n => exact Yields.bind ⟨rfl, rfl⟩ (yields_pure _)

lemma write_outside (hnode : f.node = .regular bytes) (hn : n ≤ bytes.length) (hout : n < start + data.length) :
    (write (.whole .readWrite n) start data).Yields f (.ok .outOfRange) f := by
  rw [write, if_neg fun h => h rfl]
  refine (read_whole hnode hn).bind ?_
  rw [List.length_take_of_le hn, if_pos hout]
  exact yields_pure _

lemma setLen_fits (h : len ≤ maxLen) : (setLen len).Yields f (.ok ()) { f with node := f.node.edit (resized len) } := by
  rw [setLen, if_neg (Nat.not_lt.mpr h)]
  exact ⟨rfl, rfl⟩

lemma setLen_tooLong (h : maxLen < len) :
    (setLen len).Yields f (.error (.error (.file (.truncatingTo f.path len) .lengthTooLarge))) f := by
  rw [setLen, if_pos h]
  exact ⟨rfl, rfl⟩

lemma truncate_readOnly (f : MappedFile) (n len : Nat) :
    (truncate (.whole .read n) len).Yields f (.error (.error (.file (.truncating f.path) .mappedReadOnly))) f :=
  ⟨rfl, rfl⟩

lemma truncate_tooLong (hm : f.mapping = some (.whole .readWrite n)) (h : maxLen < len) :
    (truncate (.whole .readWrite n) len).Yields f
      (.error (.error (.file (.truncatingTo f.path len) .lengthTooLarge)))
      { f with mapping := some (.whole .readWrite 0) } := by
  rw [truncate, if_neg fun h => h rfl]
  exact (unmap_whole hm).bind (setLen_tooLong h).bind_error

lemma truncate_fits (hm : f.mapping = some (.whole .readWrite n)) (hnode : f.node = .regular bytes) (h : len ≤ maxLen) :
    (truncate (.whole .readWrite n) len).Yields f (.ok ())
      { f with node := f.node.edit (resized len), mapping := some (.whole .readWrite len) } := by
  have hresized : f.node.edit (resized len) = .regular (resized len bytes) := by rw [hnode]; rfl
  rw [truncate, if_neg fun h => h rfl]
  exact (unmap_whole hm).bind ((setLen_fits h).bind (map_regular hresized .readWrite len))

lemma turn_open (hf : f.Covered) (mode : MapMode) :
    ∃ r g, (Step.openAs mode).action.Yields f r g ∧ Turn f (.openAs mode) r g := by
  cases hnode : f.node with
  | regular bytes => exact ⟨_, _, (open_regular hf hnode mode).bind (yields_pure _), .opened mode hnode⟩
  | _ =>
    have hdisk : f.disk? = none := by rw [disk?, hnode]
    obtain ⟨e, hopen⟩ := open_unreadable hf hdisk mode
    exact ⟨_, _, hopen.bind_error, .notOpened mode e hdisk⟩

lemma turn_through {use : Mapping → Action MappedFile Answer} (hf : f.Covered) (hopen : ∀ mode, s ≠ .openAs mode)
    (hclose : s ≠ .close) (huse : ∀ bytes mode n, f.mapping = some (.whole mode n) → f.node = .regular bytes →
      n ≤ bytes.length → ∃ r g, (use (.whole mode n)).Yields f r g ∧ Turn f s r g) :
    ∃ r g, (through use).Yields f r g ∧ Turn f s r g := by
  cases hm : f.mapping with
  | none => exact ⟨_, _, through_none hm use, .unopened hm hopen hclose⟩
  | some m =>
    obtain ⟨bytes, mode, n, hnode, hn, rfl⟩ := hf m hm
    obtain ⟨r, g, hyields, hturn⟩ := huse bytes mode n hm hnode hn
    exact ⟨r, g, through_some hm hyields, hturn⟩

lemma turn_write (hf : f.Covered) (start : Nat) (data : List UInt8) :
    ∃ r g, (Step.write start data).action.Yields f r g ∧ Turn f (.write start data) r g := by
  refine turn_through hf nofun nofun fun bytes mode n hm hnode hn => ?_
  cases mode with
  | read => exact ⟨_, _, (yields_pure _).bind (yields_pure _), .kept .readOnly hm nofun nofun⟩
  | readWrite =>
    rcases Nat.lt_or_ge n (start + data.length) with hout | hin
    · exact ⟨_, _, (write_outside hnode hn hout).bind (yields_pure _),
        .kept .outOfRange hm nofun fun h => Nat.not_le.mpr hout h.2⟩
    · exact ⟨_, _, (write_inside hnode hn hin).bind (yields_pure _), .written hm rfl hin⟩

lemma turn_truncate (hf : f.Covered) (len : Nat) :
    ∃ r g, (Step.truncate len).action.Yields f r g ∧ Turn f (.truncate len) r g := by
  refine turn_through hf nofun nofun fun bytes mode n hm hnode _ => ?_
  cases mode with
  | read => exact ⟨_, _, (truncate_readOnly f n len).bind_error, .readOnly len hm rfl⟩
  | readWrite =>
    rcases Nat.lt_or_ge maxLen len with hlong | hlen
    · exact ⟨_, _, (truncate_tooLong hm hlong).bind_error, .tooLong hm rfl hlong⟩
    · exact ⟨_, _, (truncate_fits hm hnode hlen).bind (yields_pure _), .truncated hm rfl hlen⟩

lemma turn (hf : f.Covered) (s : Step) : ∃ r g, s.action.Yields f r g ∧ Turn f s r g := by
  cases s with
  | openAs mode => exact turn_open hf mode
  | close => exact ⟨_, _, (close_covered hf).bind (yields_pure _), .closed⟩
  | write start data => exact turn_write hf start data
  | truncate len => exact turn_truncate hf len
  | flush => exact turn_through hf nofun nofun fun _ _ _ hm _ _ =>
      ⟨_, _, (yields_pure ()).bind (yields_pure _), .flushed hm⟩

end Turns

end MappedFile

end BitStore
