/-
# Reshape.Proofs.Calendar.Layout -- what is written in a layout is read back

Reading an item takes off the text what the item was written as, whatever follows
(`Item.scan_write`) -- but for a blank, which takes all blanks there are, so that something else has
to follow it. A layout is then read item by item (`Layout.scan_write`), and one that has the year,
the month and the day gives the day of the instant back (`readDate?_write`).

The layouts that have names are of this kind (`Layout.isOfDay_of_named?`), and a text in one of them
has no blanks at its ends.
-/

import Reshape.Calendar.Format
import Reshape.Proofs.Calendar.Days
import Reshape.Proofs.Calendar.Scanning
import Reshape.Proofs.Text.Search

namespace Reshape.Calendar

variable {i : Instant} {layout : Layout}

/-! ## Items -/

/-- An item is written as it can be read: a year of four digits, and a time that a clock can show.
The fraction is not written at all. -/
def Item.Shows (i : Instant) : Item → Prop
  | .year => 0 ≤ i.date.year ∧ i.date.year ≤ 9999
  | .hour => i.hour ≤ 23
  | .second => i.clockSecond ≤ 60
  | .fraction => False
  | _ => True

/-- An item that is written without blanks. -/
def Item.solid : Item → Bool
  | .blank | .fraction => false
  | .literal c => !Text.isBlank c
  | _ => true

/-- What reading a written item puts into the fields. -/
def Item.note (i : Instant) (f : Fields) : Item → Fields
  | .year => { f with year := some i.date.year }
  | .month | .monthName => { f with month := some i.date.month }
  | .day => { f with day := some i.date.day }
  | .hour => { f with hour := some i.hour }
  | .minute => { f with minute := some i.minute }
  | .second => { f with second := some i.clockSecond }
  | .fraction | .blank | .literal _ => f

theorem Instant.isDay_date (i : Instant) : i.date.IsDay :=
  Date.isDay_ofNumber i.day

theorem Instant.day_date_le (i : Instant) : i.date.day ≤ 31 :=
  i.isDay_date.day_le.trans (daysIn_le _ _)

/-- **A written item is read back.** -/
theorem Item.scan_write {item : Item} {rest : List Char} (h : item.Shows i)
    (hblank : item = .blank → Text.trimStart rest = rest) (f : Fields) :
    item.scan f ((item.write i).toList ++ rest) = .ok (item.note i f, rest) := by
  have hmonth := i.isDay_date.month_le
  have hday := i.day_date_le
  cases item with
  | year =>
    have hrange : -Decimal.twoTo 31 ≤ i.date.year ∧ i.date.year < Decimal.twoTo 31 := by
      have hsize : Decimal.twoTo 31 = 2147483648 := rfl
      obtain ⟨hlow, hhigh⟩ := h
      omega
    rw [scan, write, scanYear_yearText h.1 h.2, ok_bind]
    dsimp only
    rw [yearInRange, if_pos hrange]
    rfl
  | month =>
    rw [scan, write, scanShort_padded_of_le (by omega) i.isDay_date.month_pos hmonth]
    rfl
  | day =>
    rw [scan, write, scanShort_padded_of_le (by omega) i.isDay_date.day_pos hday]
    rfl
  | hour =>
    have h : i.hour ≤ 23 := h
    rw [scan, write, scanShort_padded_of_le (by omega) (Nat.zero_le _) h]
    rfl
  | minute =>
    have hminute : i.minute ≤ 59 := Nat.le_of_lt_succ (Nat.mod_lt _ (by decide))
    rw [scan, write, scanShort_padded_of_le (by omega) (Nat.zero_le _) hminute]
    rfl
  | second =>
    have h : i.clockSecond ≤ 60 := h
    rw [scan, write, scanShort_padded_of_le (by omega) (Nat.zero_le _) h]
    rfl
  | fraction => exact absurd h id
  | monthName =>
    rw [scan, write, scanName_monthNameText i.isDay_date.month_pos hmonth, ok_bind]
    dsimp only
    rw [Nat.sub_add_cancel i.isDay_date.month_pos]
    rfl
  | blank =>
    have htrim : Text.trimStart (' ' :: rest) = rest := hblank rfl
    rw [scan, write]
    show Except.ok (f, Text.trimStart (' ' :: rest)) = _
    rw [htrim]
    rfl
  | literal c =>
    rw [scan, write, String.toList_singleton, List.cons_append, scanChar_cons]
    rfl

theorem monthNameText_solid {m : Nat} (h : 1 ≤ m) (h' : m ≤ 12) :
    ∃ c cs, (monthNameText m).toList = c :: cs ∧ ∀ d ∈ c :: cs, Text.isBlank d = false := by
  have hsolid : (monthNameText m).toList ≠ [] ∧
      (monthNameText m).toList.any Text.isBlank = false := by
    interval_cases m <;> exact ⟨by decide, by decide⟩
  obtain ⟨c, cs, heq⟩ := List.exists_cons_of_ne_nil hsolid.1
  rw [heq] at hsolid
  exact ⟨c, cs, heq, fun d hd => Bool.eq_false_iff.mpr (List.any_eq_false.mp hsolid.2 d hd)⟩

/-- A solid item is written as something, and without blanks. -/
theorem Item.write_solid {item : Item} (h : item.solid = true) :
    ∃ c cs, (item.write i).toList = c :: cs ∧ ∀ d ∈ c :: cs, Text.isBlank d = false := by
  have hpadded : ∀ width n, ∃ c cs, (padded width n).toList = c :: cs ∧
      ∀ d ∈ c :: cs, Text.isBlank d = false := by
    intro width n
    obtain ⟨c, cs, heq, -⟩ := exists_padded_eq_cons width n
    exact ⟨c, cs, heq, fun d hd => isBlank_of_isDigit (isDigit_of_mem_padded (heq ▸ hd))⟩
  have hsigned : ∀ sign n, Text.isBlank sign = false →
      ∃ c cs, sign :: (padded 4 n).toList = c :: cs ∧ ∀ d ∈ c :: cs, Text.isBlank d = false := by
    intro sign n hsign
    refine ⟨sign, _, rfl, List.forall_mem_cons.mpr ⟨hsign, fun d hd => ?_⟩⟩
    exact isBlank_of_isDigit (isDigit_of_mem_padded hd)
  cases item with
  | year =>
    show ∃ c cs, (yearText i.date.year).toList = c :: cs ∧ _
    unfold yearText
    split_ifs
    · exact hpadded _ _
    · rw [String.toList_append]
      exact hsigned '-' _ rfl
    · rw [String.toList_append]
      exact hsigned '+' _ rfl
  | month => exact hpadded _ _
  | day => exact hpadded _ _
  | hour => exact hpadded _ _
  | minute => exact hpadded _ _
  | second => exact hpadded _ _
  | fraction => cases h
  | monthName => exact monthNameText_solid i.isDay_date.month_pos i.isDay_date.month_le
  | blank => cases h
  | literal c =>
    refine ⟨c, [], String.toList_singleton c, ?_⟩
    simpa [Item.solid] using h

/-! ## Layouts -/

theorem Layout.toList_write (layout : Layout) (i : Instant) :
    (layout.write i).toList = layout.flatMap fun item => (item.write i).toList := by
  rw [write, String.toList_intercalate, String.toList_empty, Text.intercalate_nil, List.map_map]
  rfl

/-- Behind each blank of the layout stands something else. -/
abbrev Layout.Divided (layout : Layout) : Prop :=
  layout.IsChain fun item next => item = .blank → next.solid = true

/-- **What is written in a layout is read back**, item by item. -/
theorem Layout.scan_write (hshows : ∀ item ∈ layout, item.Shows i) (hdivided : layout.Divided)
    (f : Fields) :
    layout.scan f (layout.write i).toList = .ok (layout.foldl (Item.note i) f, []) := by
  rw [toList_write]
  induction layout generalizing f with
  | nil => rfl
  | cons item items ih =>
    rw [List.forall_mem_cons] at hshows
    have hblank : item = .blank →
        Text.trimStart (items.flatMap fun item => (item.write i).toList) =
          items.flatMap fun item => (item.write i).toList := by
      intro hitem
      cases items with
      | nil => rfl
      | cons next items =>
        have hsolid := (List.isChain_cons_cons.mp hdivided).1 hitem
        obtain ⟨c, cs, heq, hc⟩ := Item.write_solid (i := i) hsolid
        rw [List.flatMap_cons, heq, List.cons_append, trimStart_cons (hc c List.mem_cons_self)]
    rw [scan, List.flatMap_cons, Item.scan_write hshows.1 hblank, ok_bind]
    exact ih hshows.2 (List.isChain_of_isChain_cons hdivided) _

/-- What each item keeps is kept. -/
theorem Layout.noted_of_keeps {p : Fields → Prop} (hkeep : ∀ item f, p f → p (Item.note i f item))
    (layout : Layout) {f : Fields} (h : p f) : p (layout.foldl (Item.note i) f) := by
  induction layout generalizing f with
  | nil => exact h
  | cons item items ih => exact ih (hkeep item f h)

/-- What one item notes and each item keeps is noted. -/
theorem Layout.noted_of_mem {p : Fields → Prop} {item : Item} (hmem : item ∈ layout)
    (hset : ∀ f, p (Item.note i f item)) (hkeep : ∀ item f, p f → p (Item.note i f item))
    (f : Fields) : p (layout.foldl (Item.note i) f) := by
  obtain ⟨before, after, rfl⟩ := List.append_of_mem hmem
  rw [List.foldl_append, List.foldl_cons]
  exact noted_of_keeps hkeep after (hset _)

/-! ## Layouts of a day -/

/-- **A layout of a day**: it has the year, the month and the day but not the time, and blanks in
the middle only, one at a time. -/
structure Layout.IsOfDay (layout : Layout) : Prop where
  divided : layout.Divided
  timeless : ∀ item ∈ layout, item ∉ [.hour, .second, .fraction]
  year_mem : .year ∈ layout
  month_mem : .month ∈ layout ∨ .monthName ∈ layout
  day_mem : .day ∈ layout
  head_solid : ∀ item, layout.head? = some item → item.solid = true
  last_solid : ∀ item, layout.getLast? = some item → item.solid = true

theorem midnight_date (i : Instant) : Instant.midnight i.date = ⟨i.day, 0, 0⟩ := by
  rw [Instant.midnight, Instant.date, Date.number_ofNumber]

namespace Layout.IsOfDay

variable (h : layout.IsOfDay)
include h

theorem shows (hyear : 0 ≤ i.date.year ∧ i.date.year ≤ 9999) : ∀ item ∈ layout, item.Shows i := by
  intro item hmem
  have htimeless := h.timeless item hmem
  cases item with
  | year => exact hyear
  | hour => simp at htimeless
  | second => simp at htimeless
  | fraction => simp at htimeless
  | month => trivial
  | day => trivial
  | minute => trivial
  | monthName => trivial
  | blank => trivial
  | literal c => trivial

/-- The fields of a written day are those of the day. -/
theorem date_noted (hyear : 0 ≤ i.date.year ∧ i.date.year ≤ 9999) :
    (layout.foldl (Item.note i) {}).date = .ok i.date := by
  have hy : (layout.foldl (Item.note i) {}).year = some i.date.year :=
    noted_of_mem (p := fun f => f.year = some i.date.year) h.year_mem (fun f => rfl)
      (fun item f hf => by cases item <;> first | exact hf | rfl) {}
  have hm : (layout.foldl (Item.note i) {}).month = some i.date.month := by
    have hkeep : ∀ item f, Fields.month f = some i.date.month →
        (Item.note i f item).month = some i.date.month := by
      intro item f hf
      cases item <;> first | exact hf | rfl
    rcases h.month_mem with hmem | hmem
    · exact noted_of_mem hmem (fun f => rfl) hkeep {}
    · exact noted_of_mem hmem (fun f => rfl) hkeep {}
  have hd : (layout.foldl (Item.note i) {}).day = some i.date.day :=
    noted_of_mem (p := fun f => f.day = some i.date.day) h.day_mem (fun f => rfl)
      (fun item f hf => by cases item <;> first | exact hf | rfl) {}
  have hw : (layout.foldl (Item.note i) {}).weekday = none :=
    noted_of_keeps (p := fun f => f.weekday = none)
      (fun item f hf => by cases item <;> exact hf) layout rfl
  have hvalid : i.date.valid = true := by
    rw [Date.valid_iff]
    refine ⟨?_, i.isDay_date⟩
    have hfirst : firstYear = -262143 := rfl
    have hlast : lastYear = 262142 := rfl
    omega
  unfold Fields.date
  rw [hy, hm, hd, hw]
  simp [hvalid]

/-- **A written day is read back.** -/
theorem readDate?_write (hyear : 0 ≤ i.date.year ∧ i.date.year ≤ 9999) :
    readDate? layout (layout.write i).toList = some (Instant.midnight i.date) := by
  have hfields : layout.fields (layout.write i).toList = .ok (layout.foldl (Item.note i) {}) := by
    rw [fields, scan_write (h.shows hyear) h.divided, ok_bind]
    rfl
  unfold readDate?
  rw [hfields, ok_bind, h.date_noted hyear]

/-- A written day has no blanks at its ends. -/
theorem trim_write (i : Instant) :
    Text.trim (layout.write i).toList = (layout.write i).toList := by
  rw [toList_write]
  apply Text.trim_eq_self
  · intro c hc
    cases hlayout : layout with
    | nil => rw [hlayout] at hc; cases hc
    | cons item items =>
      obtain ⟨d, ds, heq, hd⟩ := Item.write_solid (i := i) (h.head_solid item (by simp [hlayout]))
      rw [hlayout, List.flatMap_cons, heq, List.cons_append, List.head?_cons] at hc
      exact Option.some.inj hc ▸ hd d List.mem_cons_self
  · intro c hc
    rcases List.eq_nil_or_concat' layout with hlayout | ⟨items, item, hlayout⟩
    · rw [hlayout] at hc
      cases hc
    · obtain ⟨d, ds, heq, hd⟩ := Item.write_solid (i := i) (h.last_solid item (by simp [hlayout]))
      rw [hlayout, List.flatMap_append, List.flatMap_singleton, heq] at hc
      rw [List.getLast?_append_of_ne_nil _ (List.cons_ne_nil d ds)] at hc
      exact hd c (List.mem_of_getLast? hc)

end Layout.IsOfDay

/-! ## Named layouts -/

/-- The names of the formats that say the day and nothing else. -/
def dayFormats : List String :=
  ["YYYY-MM-DD", "MM/DD/YYYY", "DD/MM/YYYY", "MMM DD, YYYY"]

/-- **The named layouts.** -/
theorem Layout.named?_eq_some_iff {name : String} : named? name = some layout ↔
    name = "YYYY-MM-DD" ∧ layout = yearFirst '-' ∨ name = "MM/DD/YYYY" ∧ layout = monthFirst ∨
      name = "DD/MM/YYYY" ∧ layout = dayFirst ∨ name = "MMM DD, YYYY" ∧ layout = namedMonth := by
  constructor
  · intro h
    unfold named? at h
    split_ifs at h with hname hname hname hname
    · exact .inl ⟨hname, (Option.some.inj h).symm⟩
    · exact .inr (.inl ⟨hname, (Option.some.inj h).symm⟩)
    · exact .inr (.inr (.inl ⟨hname, (Option.some.inj h).symm⟩))
    · exact .inr (.inr (.inr ⟨hname, (Option.some.inj h).symm⟩))
  · rintro (⟨rfl, rfl⟩ | ⟨rfl, rfl⟩ | ⟨rfl, rfl⟩ | ⟨rfl, rfl⟩)
    all_goals rfl

theorem Layout.exists_named?_of_mem {name : String} (h : name ∈ dayFormats) :
    ∃ layout, named? name = some layout := by
  simp only [dayFormats, List.mem_cons, List.not_mem_nil, or_false] at h
  rcases h with rfl | rfl | rfl | rfl
  all_goals exact ⟨_, rfl⟩

theorem Layout.named?_of_not_mem {name : String} (h : name ∉ dayFormats) : named? name = none := by
  rw [Option.eq_none_iff_forall_ne_some]
  intro layout hlayout
  apply h
  obtain ⟨rfl, -⟩ | ⟨rfl, -⟩ | ⟨rfl, -⟩ | ⟨rfl, -⟩ := named?_eq_some_iff.mp hlayout
  all_goals decide

theorem Layout.isOfDay_of_named? {name : String} (h : named? name = some layout) :
    layout.IsOfDay := by
  obtain ⟨-, rfl⟩ | ⟨-, rfl⟩ | ⟨-, rfl⟩ | ⟨-, rfl⟩ := named?_eq_some_iff.mp h
  all_goals exact ⟨by decide, by decide, by decide, by decide, by decide, by decide, by decide⟩

theorem format_of_named? {name : String} (h : Layout.named? name = some layout) (i : Instant) :
    format name i = layout.write i := by
  rw [format, h]

end Reshape.Calendar
