import Mathlib
import MediaChannels.Proofs.Config.Tables
import MediaChannels.Proofs.Toml.Bindings
import MediaChannels.Proofs.Toml.Lines

/-!
# Configurations are read again

An accepted configuration can be written, and what is written is read as the same configuration. Written down is every
setting: the texts with what they have to escape, the numbers, and of the settings that may be missing those that are
there. Only a time that needs the sixty-fourth bit could not be written; no text gives such a time.

* `writable_document`, `ofText_text`: the document of a configuration is one that is read again, and so is the
  configuration.
* `text?_of_valid`, `time_lt`: a valid configuration has a text if its times fit into documents; those of a text do.
* `round_trip`: so accepted configurations can be written, and are read again.
-/

namespace MediaChannels

open Toml (Value Entries Assignment Document)

namespace Config

variable {name : String} {n : Int}

/-! ## What can be written -/

theorem fits_assignNumber :
    fits (assignNumber name n) = true ↔ Int64.minValue.toInt ≤ n ∧ n ≤ Int64.maxValue.toInt := by
  rw [fits, assignNumber, Bool.and_eq_true, decide_eq_true_eq, decide_eq_true_eq]

theorem fits_natural {n : Nat} (h : n < 1 <<< 63) : fits (assignNumber name n) = true := by
  have hmin : Int64.minValue.toInt ≤ 0 := by decide
  have hmax : (Int64.maxValue.toInt : Int) = ((1 <<< 63 : Nat) : Int) - 1 := by decide
  rw [fits_assignNumber]
  omega

theorem fits_number (x : Int32) : fits (assignNumber name x.toInt) = true := by
  have hmin : Int64.minValue.toInt ≤ Int32.minValue.toInt := by decide
  have hmax : Int32.maxValue.toInt ≤ Int64.maxValue.toInt := by decide
  exact fits_assignNumber.2 ⟨Int.le_trans hmin x.minValue_le_toInt, Int.le_trans x.toInt_le hmax⟩

theorem writable_assignNumber (h : fits (assignNumber name n) = true) : (assignNumber name n).Writable :=
  have ⟨hmin, hmax⟩ := fits_assignNumber.1 h
  ⟨Toml.isPath_singleton name, .integer hmin hmax⟩

/-- The assignments of the document of a configuration. -/
inductive Assigns (c : HostConfig) : Assignment → Prop
  | text (name s : String) : Assigns c (assignText name s)
  | word (name : String) (x : UInt32) : Assigns c (assignNumber name x.toNat)
  | number (name : String) (x : Int32) : Assigns c (assignNumber name x.toInt)
  | level (name : String) (x : UInt8) : Assigns c (assignNumber name x.toNat)
  | time (name : String) {x : UInt64} (hx : x ∈ [c.pollInterval, c.shutdownGrace]) :
    Assigns c (assignNumber name x.toNat)
  | size (name : String) {n : Nat}
    (hn : n ∈ [c.segment.sizes.queueSize, c.segment.sizes.slotSize, c.segment.sizes.eventSlots]) :
    Assigns c (assignNumber name n)

namespace Assigns

variable {c : HostConfig} {a : Assignment}

theorem writable (h : Assigns c a) (hfits : fits a = true) : a.Writable := by
  cases h with
  | text name s => exact ⟨Toml.isPath_singleton name, .text s⟩
  | word | number | level | time | size => exact writable_assignNumber hfits

/-- They all fit, unless one of the times is too long. -/
theorem fits (h : Assigns c a) (hsizes : c.segment.sizes.Valid) (hpoll : c.pollInterval.toNat < 1 <<< 63)
    (hgrace : c.shutdownGrace.toNat < 1 <<< 63) : fits a = true := by
  cases h with
  | text => rfl
  | word _ x => exact fits_natural (Nat.lt_trans x.toNat_lt (by decide))
  | number _ x => exact fits_number x
  | level _ x => exact fits_natural (Nat.lt_trans x.toNat_lt (by decide))
  | time _ hx =>
    simp only [List.mem_cons, List.not_mem_nil, or_false] at hx
    rcases hx with rfl | rfl
    · exact fits_natural hpoll
    · exact fits_natural hgrace
  | size _ hn =>
    simp only [List.mem_cons, List.not_mem_nil, or_false] at hn
    rcases hn with rfl | rfl | rfl
    · exact fits_natural (Nat.lt_of_le_of_lt hsizes.queueSize_le (by decide))
    · exact fits_natural (Nat.lt_of_le_of_lt hsizes.slotSize_le (by decide))
    · exact fits_natural (Nat.lt_of_le_of_lt hsizes.eventSlots_le (by decide))

end Assigns

theorem fits_of_valid {s : SegmentSettings} (h : s.sizes.Valid) : s.Fits where
  queueSize := Nat.lt_of_le_of_lt h.queueSize_le (by decide)
  slotSize := Nat.lt_of_le_of_lt h.slotSize_le (by decide)
  eventSlots := Nat.lt_of_le_of_lt h.eventSlots_le (by decide)

end Config

namespace HostConfig

open Config

variable {c : HostConfig} {text : String}

theorem assigns_assignments (c : HostConfig) : ∀ a ∈ c.document.assignments, Assigns c a := by
  intro a ha
  rcases List.mem_append.1 ha with ha | ha
  · simp only [List.mem_cons, List.not_mem_nil, or_false] at ha
    rcases ha with rfl | rfl | rfl
    · exact .time _ (by simp)
    · exact .time _ (by simp)
    · exact .level _ _
  · obtain ⟨file, -, rfl⟩ := List.mem_map.1 ha
    exact .text _ _

theorem assigns_sections (c : HostConfig) : ∀ sec ∈ c.document.sections, ∀ a ∈ sec.assignments, Assigns c a := by
  intro sec hsec a ha
  simp only [document, List.mem_cons, List.not_mem_nil, or_false] at hsec
  rcases hsec with rfl | rfl | rfl | rfl
  · simp only [segmentSection, sectionOf, List.mem_cons, List.not_mem_nil, or_false] at ha
    rcases ha with rfl | rfl | rfl | rfl
    · exact .text _ _
    all_goals exact .size _ (by simp)
  · rcases List.mem_append.1 ha with ha | ha
    · simp only [List.mem_cons, List.not_mem_nil, or_false] at ha
      rcases ha with rfl | rfl | rfl | rfl | rfl | rfl
      · exact .word _ _
      · exact .word _ _
      · exact .word _ _
      all_goals exact .number _ _
    · obtain ⟨map, -, rfl⟩ := List.mem_map.1 ha
      exact .number _ _
  · simp only [audioSection, sectionOf, List.mem_cons, List.not_mem_nil, or_false] at ha
    rcases ha with rfl | rfl | rfl | rfl <;> exact .word _ _
  · simp only [videoSection, sectionOf, List.mem_cons, List.not_mem_nil, or_false] at ha
    rcases ha with rfl | rfl | rfl | rfl | rfl | rfl | rfl | rfl | rfl <;> exact .word _ _

theorem text?_eq_some_iff :
    c.text? = some text ↔
      ((∀ a ∈ c.document.assignments, fits a = true) ∧
        ∀ sec ∈ c.document.sections, ∀ a ∈ sec.assignments, fits a = true) ∧ c.text = text := by
  rw [text?, Option.ite_none_right_eq_some, Option.some_inj, Bool.and_eq_true, List.all_eq_true, List.all_eq_true]
  simp only [List.all_eq_true]

/-- What has a text is a document that is read again. -/
theorem writable_document (h : c.text? = some text) : c.document.Writable := by
  obtain ⟨⟨hassignments, hsections⟩, -⟩ := text?_eq_some_iff.1 h
  constructor
  · intro a ha
    exact (assigns_assignments c a ha).writable (hassignments a ha)
  · intro sec hsec
    refine ⟨?_, fun a ha => (assigns_sections c sec hsec a ha).writable (hsections sec hsec a ha)⟩
    simp only [document, List.mem_cons, List.not_mem_nil, or_false] at hsec
    rcases hsec with rfl | rfl | rfl | rfl
    · exact (by decide : Toml.IsPath ["segment"])
    · exact (by decide : Toml.IsPath ["stream"])
    · exact (by decide : Toml.IsPath ["stream", "audio"])
    · exact (by decide : Toml.IsPath ["stream", "video"])

/-- **A valid configuration is read again from its text.** -/
theorem ofText_text (h : c.text? = some text) (hv : c.validate = .ok ()) : ofText text = .ok c := by
  have hread : Document.ofText? text.toList = some c.document := by
    rw [← (text?_eq_some_iff.1 h).2, HostConfig.text, String.toList_ofList]
    exact Document.ofText?_write (writable_document h)
  exact ofText_eq_ok_iff.2
    ⟨c.document, c.entries, hread, c.entries?_document, host?_entries (fits_of_valid (sizes_valid_of_validate hv)), hv⟩

/-- A valid configuration has a text if its times fit into documents. -/
theorem text?_of_valid (hv : c.validate = .ok ()) (hpoll : c.pollInterval.toNat < 1 <<< 63)
    (hgrace : c.shutdownGrace.toNat < 1 <<< 63) : c.text? = some c.text := by
  have hsizes := sizes_valid_of_validate hv
  refine text?_eq_some_iff.2 ⟨⟨fun a ha => ?_, fun sec hsec a ha => ?_⟩, rfl⟩
  · exact (assigns_assignments c a ha).fits hsizes hpoll hgrace
  · exact (assigns_sections c sec hsec a ha).fits hsizes hpoll hgrace

/-! ## What is read fits -/

/-- A number that is read from a text fits into documents, if its default does. -/
theorem number_lt {d : Document} {es : Entries} {name : String} {n default : Nat} (hd : d.Written)
    (hes : d.entries? = some es) (h : some (.integer n) = (es.lookup name).or (some (.integer default)))
    (hdefault : default < 1 <<< 63) : n < 1 <<< 63 := by
  cases hv : es.lookup name with
  | none =>
    rw [hv, Option.none_or, Option.some_inj, Value.integer.injEq] at h
    omega
  | some v =>
    rw [hv, Option.some_or, Option.some_inj] at h
    have hseen : es.seen [.key name] = some (.scalar (.integer n)) := by rw [Entries.seen_key, hv, ← h]; rfl
    have hbound : (n : Int) ≤ Int64.maxValue.toInt := (hd.of_seen hes hseen).2
    have hmax : Int64.maxValue.toInt = ((1 <<< 63 : Nat) : Int) - 1 := by decide
    omega

theorem time_lt (h : ofText text = .ok c) :
    c.pollInterval.toNat < 1 <<< 63 ∧ c.shutdownGrace.toNat < 1 <<< 63 := by
  obtain ⟨d, es, hd, hes, hc, -⟩ := ofText_eq_ok_iff.1 h
  have hwritten := Document.ofText?_written hd
  have hoverlays := (host?_eq_some_iff.1 hc).1
  constructor
  · exact number_lt hwritten hes (hoverlays "poll_interval_ms" (by decide)) (by decide)
  · exact number_lt hwritten hes (hoverlays "shutdown_grace_secs" (by decide)) (by decide)

/-! ## Written and read -/

/-- **An accepted configuration has a text, and is read again from it.** The configurations that are accepted at all are
the valid ones with times of 63 bits: of the other settings, none is without a text. -/
theorem round_trip (c : HostConfig) :
    (∀ text, ofText text = .ok c → ∃ written, c.text? = some written ∧ ofText written = .ok c) ∧
      ((∃ text, ofText text = .ok c) ↔
        c.validate = .ok () ∧ c.pollInterval.toNat < 1 <<< 63 ∧ c.shutdownGrace.toNat < 1 <<< 63) := by
  constructor
  · intro text h
    have hv := validate_of_ofText h
    have htext := text?_of_valid hv (time_lt h).1 (time_lt h).2
    exact ⟨c.text, htext, ofText_text htext hv⟩
  · constructor
    · rintro ⟨text, h⟩
      exact ⟨validate_of_ofText h, time_lt h⟩
    · rintro ⟨hv, hpoll, hgrace⟩
      exact ⟨c.text, ofText_text (text?_of_valid hv hpoll hgrace) hv⟩

theorem round_trip_escapes :
    let c : HostConfig := { logFile := some "é\"\x01", stream := { keyMap := some (-3) } }
    (ofText "log_file = \"é\\\"\\u0001\"\n[stream]\ngcmap = -3" = .ok c ∧
        ∃ written, c.text? = some written ∧ ofText written = .ok c) ∧
      ∃ text, ofText text = .ok { pollInterval := 9223372036854775807 } := by
  intro c
  have h : ofText "log_file = \"é\\\"\\u0001\"\n[stream]\ngcmap = -3" = .ok c := by cbv
  have hlong : ({ pollInterval := 9223372036854775807 } : HostConfig).validate = .ok () :=
    validate_eq_ok_iff.2 ⟨by decide, by decide, by decide, sizes_valid_of_validate validate_default⟩
  exact ⟨⟨h, (round_trip c).1 _ h⟩, (round_trip _).2.2 ⟨hlong, by decide, by decide⟩⟩

end HostConfig

end MediaChannels
