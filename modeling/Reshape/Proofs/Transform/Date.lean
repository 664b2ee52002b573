/-
# Reshape.Proofs.Transform.Date -- dates that are written are read back

Under the hint of its format a day is read back as it was written, whatever the day, and an instant
in the form `ISO` is read back without a hint, to the millisecond (`instantOf?_format`).

Without a hint, which is what no setting and `auto` mean, not every named format is known. The
layouts that are tried are a list of their own beside the table of the named formats, and two of the
four are missing in it: a day in words is always refused, and one with the day first is refused
unless it can be taken for another day (`instantOf?_none_format`, `isSome_instantOf?_format_iff`).
-/

import Reshape.Proofs.Calendar.Automatic
import Reshape.Transform.Date

namespace Reshape.Transform

open Calendar

/-! ## Instants that are come by -/

/-- **Each instant that a value means** is one that a clock can show, -/
theorem onClock_of_instantOf? {hint : Option String} {value : Json} {i : Instant}
    (h : instantOf? hint value = some i) : i.OnClock := by
  cases value with
  | num n => exact onClock_of_ofNumber? h
  | str s => exact onClock_of_read? h
  | null => cases h
  | bool b => cases h
  | arr items => cases h
  | obj members => cases h

/-- and so is each that one of them is moved to. -/
theorem DateAdd.onClock_of_move? {s : DateAdd} {i j : Instant} (hi : i.OnClock)
    (h : s.move? i = some j) : j.OnClock := by
  have hmonths : ∀ n : Int,
      (if n.natAbs < Decimal.twoTo 32 then i.addMonths? n else none) = some j → j.OnClock := by
    intro n hn
    split_ifs at hn
    exact hi.of_addMonths? hn
  unfold move? at h
  cases hunit : s.unit with
  | days =>
    rw [hunit] at h
    exact hi.of_addSeconds? h
  | hours =>
    rw [hunit] at h
    exact hi.of_addSeconds? h
  | minutes =>
    rw [hunit] at h
    exact hi.of_addSeconds? h
  | months =>
    rw [hunit] at h
    exact hmonths s.amount h
  | years =>
    rw [hunit] at h
    exact hmonths (s.amount * 12) h

/-! ## With a hint -/

/-- A hint that is no count names a layout to try first, or nothing. -/
theorem read?_of_ne {name : String} (htimestamp : name ≠ "timestamp") (hunix : name ≠ "unix")
    (cs : List Char) : read? (some name) cs =
      ((Layout.named? name).bind fun layout => readDate? layout cs).or (readAny? cs) :=
  if_neg (by simp [htimestamp, hunix])

/-- **A date that is written is read back**: a day under the hint of its format, as the midnight it
begins with, and any instant in the internet form, to the millisecond, under each hint that names
neither a format of days nor a count from the start of 1970, and under none. -/
theorem instantOf?_format {i : Instant} (hclock : i.OnClock)
    (hyear : 0 ≤ i.date.year ∧ i.date.year ≤ 9999) :
    (∀ name ∈ dayFormats, instantOf? (some name) (.str (format name i)) = some ⟨i.day, 0, 0⟩) ∧
      ∀ hint : Option String, (∀ name ∈ dayFormats ++ ["timestamp", "unix"], hint ≠ some name) →
        instantOf? hint (.str (isoText i)) = some { i with nano := i.nano - i.nano % 1000000 } := by
  constructor
  · intro name hname
    obtain ⟨layout, hlayout⟩ := Layout.exists_named?_of_mem hname
    have hday := Layout.isOfDay_of_named? hlayout
    have hcounts : ∀ name ∈ dayFormats, name ≠ "timestamp" ∧ name ≠ "unix" := by decide
    rw [instantOf?, format_of_named? hlayout, hday.trim_write,
      read?_of_ne (hcounts name hname).1 (hcounts name hname).2, hlayout, Option.bind_some,
      hday.readDate?_write hyear, midnight_date, Option.some_or]
  · intro hint hhint
    have hread : readAny? (isoText i).toList = some i.toMillis := by
      rw [readAny?, internet_isoText hclock hyear]
      rfl
    rw [instantOf?, trim_isoText]
    cases hint with
    | none => exact hread
    | some name =>
      have hname : name ∉ dayFormats :=
        fun hmem => hhint name (List.mem_append_left _ hmem) rfl
      have htimestamp : name ≠ "timestamp" := fun h => hhint "timestamp" (by decide) (h ▸ rfl)
      have hunix : name ≠ "unix" := fun h => hhint "unix" (by decide) (h ▸ rfl)
      rw [read?_of_ne htimestamp hunix, Layout.named?_of_not_mem hname, Option.bind_none,
        Option.none_or, hread]
      rfl

/-- A leap second at the end of a year is read back as it was written. -/
theorem instantOf?_format_leapSecond :
    (∀ name ∈ dayFormats, instantOf? (some name) (.str (format name ⟨17166, 86399, 1250000042⟩)) =
      some ⟨17166, 0, 0⟩) ∧
    instantOf? (some "ISO") (.str (isoText ⟨17166, 86399, 1250000042⟩)) =
      some ⟨17166, 86399, 1250000000⟩ := by
  have h := instantOf?_format (i := ⟨17166, 86399, 1250000042⟩)
    ⟨by decide, by decide, by decide⟩ (by decide)
  exact ⟨h.1, h.2 (some "ISO") (by decide)⟩

/-! ## Without a hint -/

/-- **What is made of a day without a hint**: the day, or the one with month and day exchanged, or
nothing. -/
theorem instantOf?_none_format {name : String} (hname : name ∈ dayFormats) {i : Instant}
    (hyear : 0 ≤ i.date.year ∧ i.date.year ≤ 9999) :
    instantOf? none (.str (format name i)) =
      if name = "YYYY-MM-DD" ∨ name = "MM/DD/YYYY" then some ⟨i.day, 0, 0⟩
      else if name = "DD/MM/YYYY" ∧ i.date.day ≤ 12 then
        some (.midnight ⟨i.date.year, i.date.day, i.date.month⟩)
      else none := by
  obtain ⟨layout, hlayout⟩ := Layout.exists_named?_of_mem hname
  rw [instantOf?, format_of_named? hlayout, (Layout.isOfDay_of_named? hlayout).trim_write, read?,
    ← midnight_date]
  obtain ⟨rfl, rfl⟩ | ⟨rfl, rfl⟩ | ⟨rfl, rfl⟩ | ⟨rfl, rfl⟩ := Layout.named?_eq_some_iff.mp hlayout
  · exact readAny?_write_yearFirst hyear
  · exact readAny?_write_monthFirst hyear
  · rw [readAny?_write_dayFirst hyear]
    simp
  · rw [readAny?_write_namedMonth]
    simp

/-- No setting and `auto` are no hint. -/
theorem DateFormat.hint_eq_none {s : DateFormat}
    (h : s.inputFormat = none ∨ s.inputFormat = some "auto") : s.hint = none := by
  rcases h with h | h
  · rw [hint, h]
    rfl
  · rw [hint, h]
    rfl

/-- A date is written in another format exactly when it is read. -/
theorem DateFormat.exists_of_eq_ok_iff {s : DateFormat} {value : Json} :
    (∃ result, s.of value = .ok result) ↔ (instantOf? s.hint value).isSome = true := by
  unfold DateFormat.of
  cases instantOf? s.hint value with
  | none => simp
  | some i => simp

/-- **Which days are accepted without a hint**: those with the year or the month first, and those
with the day first when the day of the month can be a month. -/
theorem isSome_instantOf?_format_iff {name : String} (hname : name ∈ dayFormats) {i : Instant}
    (hyear : 0 ≤ i.date.year ∧ i.date.year ≤ 9999) :
    ((instantOf? none (.str (format name i))).isSome = true ↔
      name = "YYYY-MM-DD" ∨ name = "MM/DD/YYYY" ∨ name = "DD/MM/YYYY" ∧ i.date.day ≤ 12) ∧
    ∀ s : DateFormat, s.inputFormat = none ∨ s.inputFormat = some "auto" →
      ((∃ result, s.of (.str (format name i)) = .ok result) ↔
        name = "YYYY-MM-DD" ∨ name = "MM/DD/YYYY" ∨ name = "DD/MM/YYYY" ∧ i.date.day ≤ 12) := by
  have hread : (instantOf? none (.str (format name i))).isSome = true ↔
      name = "YYYY-MM-DD" ∨ name = "MM/DD/YYYY" ∨ name = "DD/MM/YYYY" ∧ i.date.day ≤ 12 := by
    rw [instantOf?_none_format hname hyear, ← or_assoc]
    split_ifs with hfirst hday
    · simp [hfirst]
    · simp [hday]
    · simp [hfirst, hday]
  refine ⟨hread, fun s hs => ?_⟩
  rw [DateFormat.exists_of_eq_ok_iff, s.hint_eq_none hs]
  exact hread

/-- The last day of 2023 is refused with the day first, and accepted with the month first. -/
theorem isSome_instantOf?_format_iff_lastDay :
    (instantOf? none (.str (format "DD/MM/YYYY" ⟨19722, 0, 0⟩))).isSome = false ∧
      ∃ result, DateFormat.of ⟨some "auto", "ISO"⟩ (.str (format "MM/DD/YYYY" ⟨19722, 0, 0⟩)) =
        .ok result := by
  have hdayFirst := isSome_instantOf?_format_iff (by decide : "DD/MM/YYYY" ∈ dayFormats)
    (i := ⟨19722, 0, 0⟩) (by decide)
  have hmonthFirst := isSome_instantOf?_format_iff (by decide : "MM/DD/YYYY" ∈ dayFormats)
    (i := ⟨19722, 0, 0⟩) (by decide)
  refine ⟨?_, (hmonthFirst.2 ⟨some "auto", "ISO"⟩ (.inr rfl)).mpr (by decide)⟩
  rw [Bool.eq_false_iff, Ne, hdayFirst.1]
  decide

/-- Not every named format is known without a hint: a day in words is refused. -/
theorem not_forall_isSome_instantOf?_format :
    ¬ ∀ name ∈ dayFormats, ∀ i : Instant, 1000 ≤ i.date.year ∧ i.date.year ≤ 9999 →
      (instantOf? none (.str (format name i))).isSome = true := by
  intro h
  have hread := h "MMM DD, YYYY" (by decide) ⟨19787, 0, 0⟩ (by decide)
  rw [instantOf?_none_format (by decide) (by decide)] at hread
  exact absurd hread (by decide)

end Reshape.Transform
