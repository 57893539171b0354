import BitStore.Proofs.Json.Records
import BitStore.Usage.Json

namespace BitStore

open Json

def Sample.capped (s : Sample) : Sample := { s with time := min s.time maxCount }

def UsageEvent.capped (e : UsageEvent) : UsageEvent := { e with samples := e.samples.map Sample.capped }

namespace UsageReport

def capped (r : UsageReport) : UsageReport :=
  { r with granularity := min r.granularity maxCount, events := r.events.map UsageEvent.capped }

structure Fits (r : UsageReport) : Prop where
  peak : FitsSigned r.peak
  depth : ∀ e ∈ r.events, e.depth ≤ maxCount
  usage : ∀ e ∈ r.events, ∀ s ∈ e.samples, FitsSigned s.usage

structure Short (r : UsageReport) : Prop where
  granularity : r.granularity ≤ maxCount
  time : ∀ e ∈ r.events, ∀ s ∈ e.samples, s.time ≤ maxCount

end UsageReport

section Reading

lemma duration_reads (ns : Nat) : Reads Reader.duration (durationText ns) (min ns maxCount) :=
  Reader.reads_natural (Nat.min_le_right _ _) rfl

lemma forall₂_map {α : Type} {r : Reader α} {xs : List α} {write : α → List Char} {capped : α → α}
    (h : ∀ x ∈ xs, Reads r (write x) (capped x)) : List.Forall₂ (Reads r) (xs.map write) (xs.map capped) := by
  rw [List.forall₂_map_left_iff, List.forall₂_map_right_iff]
  exact List.forall₂_same.mpr h

lemma Sample.reads {s : Sample} (h : FitsSigned s.usage) (depth : Nat) :
    Reads sampleRecord.read (s.write depth) s.capped := by
  obtain ⟨l, hl⟩ := Layout.spread_map depth [("time", durationText s.time), ("usage", Text.integer s.usage)]
  rw [Sample.write, hl]
  refine Record.reads sampleRecord l ⟨some (min s.time maxCount), some s.usage⟩ ?_ rfl
  refine .member rfl rfl ((duration_reads s.time).map _) ?_
  refine .member rfl rfl ((Reader.signed_reads h _).map _) ?_
  exact .done _

lemma UsageEvent.reads {e : UsageEvent} (hdepth : e.depth ≤ maxCount) (h : ∀ s ∈ e.samples, FitsSigned s.usage)
    (depth : Nat) : Reads eventRecord.read (e.write depth) e.capped := by
  have hsamples : List.Forall₂ (Reads sampleRecord.read) (e.samples.map (Sample.write (depth + 2)))
      (e.samples.map Sample.capped) := forall₂_map fun s hs => Sample.reads (h s hs) _
  obtain ⟨inner, hinner⟩ := Layout.spread_list (depth + 1) (e.samples.map (Sample.write (depth + 2)))
  obtain ⟨l, hl⟩ := Layout.spread_map depth [("name", Literal.write e.name.toList), ("depth", Text.natural e.depth),
    ("samples", inner.list (e.samples.map (Sample.write (depth + 2))))]
  rw [UsageEvent.write, hinner, hl]
  refine Record.reads eventRecord l ⟨some e.name, some e.depth, some e.capped.samples⟩ ?_ rfl
  refine .member rfl rfl ((Reader.string_reads e.name _).map _) ?_
  refine .member rfl rfl ((Reader.unsigned_reads hdepth _).map _) ?_
  refine .member rfl rfl ((Reader.list_reads inner hsamples).map _) ?_
  exact .done _

lemma UsageReport.reads {r : UsageReport} (h : r.Fits) : Reads reportRecord.read r.write r.capped := by
  have hevents : List.Forall₂ (Reads eventRecord.read) (r.events.map (UsageEvent.write 2))
      (r.events.map UsageEvent.capped) := forall₂_map fun e he => UsageEvent.reads (h.depth e he) (h.usage e he) _
  obtain ⟨inner, hinner⟩ := Layout.spread_list 1 (r.events.map (UsageEvent.write 2))
  obtain ⟨l, hl⟩ := Layout.spread_map 0 [("granularity", durationText r.granularity), ("peak", Text.integer r.peak),
    ("events", inner.list (r.events.map (UsageEvent.write 2)))]
  rw [UsageReport.write, hinner, hl]
  refine Record.reads reportRecord l ⟨some (min r.granularity maxCount), some r.peak, some r.capped.events⟩ ?_ rfl
  refine .member rfl rfl ((duration_reads r.granularity).map _) ?_
  refine .member rfl rfl ((Reader.signed_reads h.peak _).map _) ?_
  refine .member rfl rfl ((Reader.list_reads inner hevents).map _) ?_
  exact .done _

end Reading

section Writing

lemma durationText_capped (ns : Nat) : durationText (min ns maxCount) = durationText ns := by
  rw [durationText, durationText, Nat.min_assoc, Nat.min_self]

lemma Sample.write_capped (depth : Nat) (s : Sample) : s.capped.write depth = s.write depth := by
  rw [Sample.write, Sample.write, Sample.capped, durationText_capped]

lemma UsageEvent.write_capped (depth : Nat) (e : UsageEvent) : e.capped.write depth = e.write depth := by
  rw [UsageEvent.write, UsageEvent.write, UsageEvent.capped, List.map_map]
  simp only [Function.comp_def, Sample.write_capped]

lemma UsageReport.write_capped (r : UsageReport) : r.capped.write = r.write := by
  rw [UsageReport.write, UsageReport.write, UsageReport.capped, List.map_map]
  simp only [Function.comp_def, UsageEvent.write_capped, durationText_capped]

lemma Sample.capped_eq {s : Sample} (h : s.time ≤ maxCount) : s.capped = s := by
  rw [Sample.capped, Nat.min_eq_left h]

lemma UsageReport.Short.capped_eq {r : UsageReport} (h : r.Short) : r.capped = r := by
  have hevents : ∀ e ∈ r.events, e.capped = e := fun e he => by
    rw [UsageEvent.capped, List.map_congr_left fun s hs => Sample.capped_eq (h.time e he s hs), List.map_id']
  rw [UsageReport.capped, Nat.min_eq_left h.granularity, List.map_congr_left hevents, List.map_id']

end Writing

/-- What is written of a report is read as the report with its durations capped, whatever the names and
the numbers, and writing that gives the same text again; so a report of short durations comes back as it was. -/
theorem UsageReport.read_written {r : UsageReport} (h : r.Fits) : ∃ text, r.writeTo none = .ok text ∧
    UsageReport.ofJson text = .ok r.capped ∧ (r.Short → UsageReport.ofJson text = .ok r) ∧
    r.capped.writeTo none = .ok text := by
  have hread : UsageReport.ofJson (String.ofList r.write) = .ok r.capped := by
    rw [UsageReport.ofJson, String.toList_ofList]
    exact Reader.run_ok (UsageReport.reads h)
  refine ⟨String.ofList r.write, rfl, hread, fun hshort => ?_, ?_⟩
  · rw [hread, hshort.capped_eq]
  · rw [UsageReport.writeTo, UsageReport.write_capped]

def extremes : UsageReport :=
  ⟨maxCount + 1, -(maxSigned : Int) - 1, [⟨"say \"\\\" twice\n\x01\x1f π 🐉", maxCount, []⟩,
    ⟨"", 0, [⟨maxCount, maxSigned⟩, ⟨3 * maxCount, -1⟩]⟩]⟩

theorem UsageReport.read_written_extremes : ∃ text, extremes.writeTo none = .ok text ∧ UsageReport.ofJson text = .ok
    ⟨maxCount, -(maxSigned : Int) - 1, [⟨"say \"\\\" twice\n\x01\x1f π 🐉", maxCount, []⟩,
      ⟨"", 0, [⟨maxCount, maxSigned⟩, ⟨maxCount, -1⟩]⟩]⟩ := by
  have hfits : extremes.Fits := ⟨by decide, by decide, by decide⟩
  obtain ⟨text, hwritten, hread, -⟩ := UsageReport.read_written hfits
  exact ⟨text, hwritten, hread⟩

end BitStore
