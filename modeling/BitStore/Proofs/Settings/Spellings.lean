import BitStore.Settings.Environment
import BitStore.Settings.Json
import BitStore.Proofs.Json.Records
import BitStore.Proofs.Settings.ByteSizes

namespace BitStore

open Text

namespace ByteSize

def Written (b : ByteSize) (text : List Char) : Prop :=
  ∃ front shown back, text = front ++ shown ++ back ∧ AllBlank front ∧ AllBlank back ∧ SameLetters shown b.write

variable {b : ByteSize} {cs ds shown text unit : List Char} {c : Char} {n value factor : Nat}

section Sizes

lemma counts_natural (h : n ≤ maxCount) : Counts (natural n) n :=
  ⟨[], natural n, rfl, .inl rfl, natural_ne_nil n, isDigit_of_mem_natural n, numeralValue_natural n, h⟩

lemma write_cut (b : ByteSize) : ∃ value unit factor, b.write = natural value ++ unit ∧ (unit, factor) ∈ spellings ∧
    value * factor = b.bytes := by
  rw [write]
  split
  · next h => exact ⟨0, [], 1, by rw [natural_small (by decide)]; rfl, by decide, h.symm⟩
  split
  · next h => exact ⟨_, ['G'], giga, rfl, by decide, Nat.div_mul_cancel (Nat.dvd_of_mod_eq_zero h)⟩
  split
  · next h => exact ⟨_, ['M'], mega, rfl, by decide, Nat.div_mul_cancel (Nat.dvd_of_mod_eq_zero h)⟩
  split
  · next h => exact ⟨_, ['K'], kilo, rfl, by decide, Nat.div_mul_cancel (Nat.dvd_of_mod_eq_zero h)⟩
  · exact ⟨b.bytes, [], 1, (List.append_nil _).symm, by decide, Nat.mul_one _⟩

lemma map_toUpper_digits (h : ∀ c ∈ ds, isDigit c = true ∨ isDigit c.toUpper = true) : ds.map Char.toUpper = ds := by
  rw [List.map_congr_left fun c hc => toUpper_digit (h c hc), List.map_id']

lemma digits_of_toUpper (h : SameLetters ds (natural n)) : ds = natural n := by
  rw [SameLetters, map_toUpper_digits fun c hc => .inl (isDigit_of_mem_natural n c hc)] at h
  rw [← h, map_toUpper_digits fun c hc => .inr (isDigit_of_mem_natural n _ (h ▸ List.mem_map_of_mem hc))]

lemma unit_of_mem_spellings : ∀ x ∈ spellings, (x.1.map Char.toUpper, x.2) ∈ ([], 1) :: units := by decide

lemma letters_of_mem_spellings : ∀ x ∈ spellings, ∀ c ∈ x.1.map Char.toUpper, c ∈ letters :=
  fun x hx => letters_of_mem_units _ (unit_of_mem_spellings x hx)

lemma bare_shown (hcount : Counts cs n) (hunit : (text, factor) ∈ spellings) (hsame : SameLetters unit text) :
    Bare (cs ++ unit) where
  head c hc := by
    obtain ⟨front, digit, rfl, _⟩ := hcount.last
    exact hcount.bare.head c (by rwa [List.head?_append_of_ne_nil _ (by simp)] at hc)
  last c hc := by
    rcases List.eq_nil_or_concat unit with rfl | ⟨unit, d, rfl⟩
    · exact hcount.bare.last c (by rwa [List.append_nil] at hc)
    · rw [List.concat_eq_append, ← List.append_assoc, List.getLast?_concat] at hc
      cases hc
      refine Bool.eq_false_iff.mpr fun hblank => toUpper_not_mem (.inr hblank) ?_
      exact letters_of_mem_spellings _ hunit _ (hsame ▸ List.mem_map_of_mem (by simp))

theorem parse_written (hb : b.bytes ≤ maxCount) (h : Written b text) : parse text = .ok b := by
  obtain ⟨front, shown, back, rfl, hfront, hback, hshown⟩ := h
  obtain ⟨value, name, factor, hwrite, hname, hbytes⟩ := write_cut b
  rw [hwrite, SameLetters, List.map_append] at hshown
  -- The case of letters may change, that of digits cannot: the count stands as it was shown.
  obtain ⟨ds, unit, rfl, hds, hunit⟩ := List.map_eq_append_iff.mp hshown
  obtain rfl := digits_of_toUpper hds
  have hpos : 0 < factor := (by decide : ∀ x ∈ spellings, 0 < x.2) _ hname
  have hcount := counts_natural ((Nat.le_mul_of_pos_right value hpos).trans (hbytes ▸ hb))
  have hbare := bare_shown hcount hname hunit
  have htrim := trim_around hfront hback hbare
  have hamount : Amount (natural value ++ unit) value factor :=
    ⟨_, [], unit, name, by rw [List.append_nil], hcount, allBlank_nil, hname, hunit⟩
  obtain ⟨hvalue, hfactor⟩ := (amount_iff hbare).mp hamount
  rw [← htrim] at hvalue hfactor
  rw [parse_some hvalue, hfactor, hbytes, if_pos hb]

lemma written_write (b : ByteSize) : Written b b.write :=
  ⟨[], b.write, [], (List.append_nil _).symm, allBlank_nil, allBlank_nil, rfl⟩

end Sizes

end ByteSize

namespace Settings

open Json

structure Fits (c : Settings) : Prop where
  granularity : c.granularityMs ≤ maxCount
  size : ∀ p ∈ c.pool, p.size.bytes ≤ maxCount

inductive SizeText (b : ByteSize) : List Char → Prop
  | number : SizeText b (natural b.bytes)
  | quoted {text : List Char} : b.Written text → SizeText b (Literal.write text)

inductive PoolText : Option PoolSettings → List Char → Prop
  | off : PoolText none ['n', 'u', 'l', 'l']
  | on {p : PoolSettings} {size : List Char} : SizeText p.size size → PoolText (some p) (Compact.map [("size", size)])

variable {α : Type} {r : Reader α} {a : α} {c : Settings} {p : PoolSettings} {b : ByteSize} {ms : Nat}
  {text size pool : List Char}

section Readers

lemma compact_map (members : List (String × List Char)) : Compact.map members = Layout.tight.map members := by
  simp [Compact.map, Layout.map, Layout.enclose, Layout.tight]
  rfl

lemma optional_reads (h : Reads r text a) (hn : text.head? ≠ some 'n') : Reads (Reader.optional r) text (some a) where
  begins := h.begins
  reads space rest hspace hrest := by
    have hread := h.here hrest
    obtain ⟨c, later, rfl, hc, _⟩ := h.begins
    have hne : c ≠ 'n' := fun heq => hn (congrArg some heq)
    rw [List.append_assoc, List.cons_append, Reader.optional, Reader.bind_ok (Reader.peek_some hspace hc)]
    simp only [Option.some.injEq, hne, imp_self]
    exact Reader.bind_ok hread

lemma optional_null : Reads (Reader.optional r) ['n', 'u', 'l', 'l'] none where
  begins := ⟨'n', _, rfl, rfl, by decide⟩
  reads space rest hspace _ := by
    rw [List.append_assoc, List.cons_append, Reader.optional, Reader.bind_ok (Reader.peek_some hspace rfl)]
    rfl

lemma byteSize_number (hb : b.bytes ≤ maxCount) : Reads byteSize (natural b.bytes) b := by
  obtain ⟨c, ds, hds⟩ := List.exists_cons_of_ne_nil (natural_ne_nil b.bytes)
  have hdigit : isDigit c = true := isDigit_of_mem_natural _ c (hds ▸ List.mem_cons_self)
  obtain ⟨hc, hbracket⟩ := Reader.begins_number (.inr hdigit)
  have hquote : c ≠ '"' := by rintro rfl; exact absurd hdigit (by decide)
  refine ⟨⟨c, ds, hds, hc, hbracket⟩, fun space rest hspace hrest => ?_⟩
  rw [hds, List.append_assoc, List.cons_append, byteSize, Reader.bind_ok (Reader.peekValue_some hspace hc),
    if_neg hquote, ← List.cons_append, ← hds]
  exact Reads.here (Reader.reads_natural hb (by rfl)) hrest

lemma byteSize_quoted (h : ByteSize.parse text = .ok b) : Reads byteSize (Literal.write text) b where
  begins := ⟨'"', _, rfl, rfl, by decide⟩
  reads space rest hspace _ := by
    have htext := Reader.text_write text rest
    rw [Literal.write_append] at htext
    rw [List.append_assoc, Literal.write_append, byteSize, Reader.bind_ok (Reader.peekValue_some hspace rfl), if_pos rfl,
      Reader.bind_ok htext, h]
    rfl

end Readers

section Forms

lemma sizeText_reads (hb : b.bytes ≤ maxCount) (h : SizeText b size) : Reads byteSize size b := by
  cases h with
  | number => exact byteSize_number hb
  | quoted hwritten => exact byteSize_quoted (ByteSize.parse_written hb hwritten)

lemma poolText_reads (hc : c.Fits) (h : PoolText c.pool pool) :
    Reads (Reader.optional poolRecord.read) pool c.pool := by
  obtain ⟨ms, pool?⟩ := c
  cases h with
  | off => exact optional_null
  | on hsize =>
    have hreads := (sizeText_reads (hc.size _ rfl) hsize).map some
    rw [compact_map]
    refine optional_reads (Record.reads poolRecord .tight (some _) ?_ rfl) fun h => absurd (Option.some.inj h) (by decide)
    exact .member rfl rfl hreads (.done _)

lemma members_read (hc : c.Fits) (hpool : PoolText c.pool pool) {members : List (String × List Char)}
    (hmembers : members = [("log_granularity_ms", natural c.granularityMs), ("page_pool", pool)] ∨
      members = [("page_pool", pool), ("log_granularity_ms", natural c.granularityMs)]) :
    ofJson (String.ofList (Compact.map members)) = .ok c := by
  have hms := Reader.unsigned_reads hc.granularity "u64"
  have hread := poolText_reads hc hpool
  have hfills : Fills record.members record.draft members ⟨some c.granularityMs, some c.pool⟩ := by
    rcases hmembers with rfl | rfl
    · exact .member rfl rfl (hms.map _) (.member rfl rfl (hread.map _) (.done _))
    · exact .member rfl rfl (hread.map _) (.member rfl rfl (hms.map _) (.done _))
  rw [ofJson, String.toList_ofList, compact_map, Reader.run_ok (Record.reads record .tight _ hfills rfl)]
  rfl

lemma poolText_written (pool : Option PoolSettings) : PoolText pool (poolText pool) := by
  cases pool with
  | none => exact .off
  | some p => exact .on .number

end Forms

section Environment

lemma textOf_utf8 (name : String) (s : String) : textOf name (some s.toUTF8) = .ok (some s) := by
  have hvalid : String.fromUTF8? s.toUTF8 = some s := by
    rw [String.fromUTF8?, String.toUTF8_eq_toByteArray, dif_pos s.isValidUTF8]
    rfl
  rw [textOf, hvalid]

lemma granularityOf_natural {front back : List Char} (hms : ms ≤ maxCount) (hfront : AllBlank front)
    (hback : AllBlank back) : granularityOf (String.ofList (front ++ natural ms ++ back)) = .ok ms := by
  have hcount := ByteSize.counts_natural hms
  rw [granularityOf, String.toList_ofList, trim_around hfront hback hcount.bare, count?_eq_some_iff.mpr hcount]

lemma environment_read (hc : c.Fits) {front back : List Char} (hfront : AllBlank front) (hback : AllBlank back)
    (hsize : ∀ p ∈ c.pool, p.size.Written size) :
    ofEnvironment (some (String.ofList (front ++ natural c.granularityMs ++ back)).toUTF8)
      (c.pool.map fun _ => (String.ofList size).toUTF8) = .ok c := by
  have hms := granularityOf_natural hc.granularity hfront hback
  rw [ofEnvironment, textOf_utf8]
  obtain ⟨ms, pool⟩ := c
  cases pool with
  | none =>
    simp only [bind, Except.bind, Option.mapM_some, hms, Functor.map, Except.map, Option.map_none, textOf]
    rfl
  | some p =>
    have hparse := ByteSize.parse_written (hc.size p rfl) (hsize p rfl)
    simp only [bind, Except.bind, Option.mapM_some, hms, Functor.map, Except.map, Option.map_some, textOf_utf8,
      String.toList_ofList, hparse]
    rfl

end Environment

theorem read_spelled (hc : c.Fits) : ofJson (String.ofList c.write) = .ok c ∧
    (∀ pool members, PoolText c.pool pool →
      (members = [("log_granularity_ms", natural c.granularityMs), ("page_pool", pool)] ∨
        members = [("page_pool", pool), ("log_granularity_ms", natural c.granularityMs)]) →
      ofJson (String.ofList (Compact.map members)) = .ok c) ∧
    (∀ front back size, AllBlank front → AllBlank back → (∀ p ∈ c.pool, p.size.Written size) →
      ofEnvironment (some (String.ofList (front ++ natural c.granularityMs ++ back)).toUTF8)
        (c.pool.map fun _ => (String.ofList size).toUTF8) = .ok c) ∧
    ∀ n ≤ maxCount, ByteSize.parse (ByteSize.write ⟨n⟩) = .ok ⟨n⟩ := by
  refine ⟨members_read hc (poolText_written c.pool) (.inl rfl), fun pool members hpool => members_read hc hpool,
    fun front back size hfront hback => environment_read hc hfront hback, fun n hn => ?_⟩
  exact ByteSize.parse_written hn (ByteSize.written_write ⟨n⟩)

def largest : Settings := ⟨maxCount, some ⟨⟨17179869183 * ByteSize.giga⟩⟩⟩

theorem read_spelled_largest :
    ofJson "\x7b\"page_pool\":\x7b\"size\":\"\\n17179869183g\u3000\"\x7d,\"log_granularity_ms\":18446744073709551615\x7d" =
      .ok largest ∧
    ofEnvironment (some " 18446744073709551615\t".toUTF8) (some "\n17179869183g\u3000".toUTF8) = .ok largest := by
  have hfits : largest.Fits := ⟨by decide, by rintro _ ⟨⟩; decide⟩
  have hshown : (⟨17179869183 * ByteSize.giga⟩ : ByteSize).write = "17179869183G".toList := by decide +kernel
  have hsize : (⟨17179869183 * ByteSize.giga⟩ : ByteSize).Written "\n17179869183g\u3000".toList :=
    ⟨['\n'], "17179869183g".toList, ['\u3000'], by decide +kernel, by decide, by decide,
      by rw [hshown]; decide +kernel⟩
  have hjson : String.ofList (Compact.map
      [("page_pool", Compact.map [("size", Literal.write "\n17179869183g\u3000".toList)]),
        ("log_granularity_ms", natural largest.granularityMs)]) =
      "\x7b\"page_pool\":\x7b\"size\":\"\\n17179869183g\u3000\"\x7d,\"log_granularity_ms\":18446744073709551615\x7d" := by
    decide +kernel
  have hms : String.ofList ([' '] ++ natural largest.granularityMs ++ ['\t']) = " 18446744073709551615\t" := by
    decide +kernel
  obtain ⟨_, hmembers, henvironment, _⟩ := read_spelled hfits
  have htext := hmembers _ _ (.on (.quoted hsize)) (.inr rfl)
  have hvariables := henvironment [' '] ['\t'] _ (by decide) (by decide) (by rintro _ ⟨⟩; exact hsize)
  rw [hjson] at htext
  rw [hms, String.ofList_toList] at hvariables
  exact ⟨htext, hvariables⟩

end Settings

end BitStore
