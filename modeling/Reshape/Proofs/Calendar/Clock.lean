/-
# Reshape.Proofs.Calendar.Clock -- instants that a clock can show

An instant has room for more than a clock can show: seconds beyond the day, and a leap second at any
time. None of it comes up. The scanners refuse what no clock shows, and offsets consist of whole
minutes, so that a leap second stays at the end of a minute; moving an instant leaves a leap second
behind or in its place. So each instant that is read is one that a clock can show
(`onClock_of_read?`, `onClock_of_lenient`), and stays one when it is moved
(`Instant.OnClock.of_addSeconds?`, `Instant.OnClock.of_addMonths?`).
-/

import Mathlib.Data.List.TakeWhile
import Reshape.Calendar.Format
import Reshape.Proofs.Decimal.Natural
import Reshape.Proofs.Except

namespace Reshape.Calendar

namespace Instant

/-- **An instant that a clock can show**: the second is one of a day, and a leap second stands at
the end of a minute. -/
structure OnClock (i : Instant) : Prop where
  second_lt : i.second < secondsPerDay
  nano_lt : i.nano < 2 * nanosPerSecond
  leap : nanosPerSecond ≤ i.nano → i.second % 60 = 59

theorem minute_le (i : Instant) : i.minute ≤ 59 :=
  Nat.le_of_lt_succ (Nat.mod_lt _ (by decide))

/-- Hour, minute and second of the minute make up the second of the day. -/
theorem clock_eq (i : Instant) : i.hour * 3600 + i.minute * 60 + i.second % 60 = i.second := by
  unfold hour minute
  omega

variable {i : Instant} (h : i.OnClock)
include h

theorem OnClock.hour_le : i.hour ≤ 23 := by
  have hsecond : i.second < 86400 := h.second_lt
  unfold hour
  omega

/-- The second is 60 in a leap second and nowhere else. -/
theorem OnClock.clockSecond_cases :
    i.nano < nanosPerSecond ∧ i.clockSecond = i.second % 60 ∧ i.clockSecond ≤ 59 ∨
      nanosPerSecond ≤ i.nano ∧ i.second % 60 = 59 ∧ i.clockSecond = 60 := by
  have hnano : i.nano < 2000000000 := h.nano_lt
  have hleap : 1000000000 ≤ i.nano → i.second % 60 = 59 := h.leap
  unfold clockSecond nanosPerSecond
  omega

end Instant

/-! ## Fields -/

/-- **Fields that a clock can show**, and an offset of whole minutes. -/
structure Fields.OnClock (f : Fields) : Prop where
  hour_le : ∀ h ∈ f.hour, h ≤ 23
  minute_le : ∀ m ∈ f.minute, m ≤ 59
  second_le : ∀ s ∈ f.second, s ≤ 60
  nano_lt : ∀ n ∈ f.nano, n < 1000000000
  offset_minutes : ∀ o ∈ f.offset, o % 60 = 0

namespace Fields.OnClock

variable {f : Fields} (h : f.OnClock)
include h

/-- The second of the day and the nanoseconds are those of an instant on each day. -/
theorem of_time {second nano : Nat} (htime : f.time = .ok (second, nano)) (day : Int) :
    (Instant.mk day second nano).OnClock := by
  unfold time at htime
  split at htime
  case h_2 => cases htime
  case h_1 hour minute hhour hminute =>
    have hhour := h.hour_le hour hhour
    have hminute := h.minute_le minute hminute
    have hsecond : f.second.getD 0 ≤ 60 := by
      cases hs : f.second with
      | none => exact Nat.zero_le _
      | some s => exact h.second_le s hs
    have hnano : f.nano.getD 0 < 1000000000 := by
      cases hn : f.nano with
      | none => decide
      | some n => exact h.nano_lt n hn
    dsimp only at htime
    split at htime
    case isTrue hsixty =>
      obtain ⟨rfl, rfl⟩ := Prod.mk.inj (Except.ok.inj htime)
      refine ⟨?_, ?_, fun _ => ?_⟩
      · show hour * 3600 + minute * 60 + 59 < 86400
        omega
      · show f.nano.getD 0 + 1000000000 < 2000000000
        omega
      · show (hour * 3600 + minute * 60 + 59) % 60 = 59
        omega
    case isFalse hsixty =>
      obtain ⟨rfl, rfl⟩ := Prod.mk.inj (Except.ok.inj htime)
      refine ⟨?_, ?_, fun hleap => ?_⟩
      · show hour * 3600 + minute * 60 + f.second.getD 0 < 86400
        omega
      · show f.nano.getD 0 < 2000000000
        omega
      · have hleap : 1000000000 ≤ f.nano.getD 0 := hleap
        omega

theorem of_localTime {i : Instant} (hi : f.localTime = .ok i) : i.OnClock := by
  rw [localTime, bind_eq_ok] at hi
  obtain ⟨d, -, hi⟩ := hi
  rw [bind_eq_ok] at hi
  obtain ⟨⟨second, nano⟩, htime, hi⟩ := hi
  cases hi
  exact h.of_time htime d.number

/-- Whole minutes do not move the end of a minute. -/
theorem of_instant {i : Instant} (hi : f.instant = .ok i) : i.OnClock := by
  unfold instant at hi
  split at hi
  case h_1 => cases hi
  case h_2 offset hoffset =>
    have hminutes := h.offset_minutes offset hoffset
    rw [bind_eq_ok] at hi
    obtain ⟨j, hj, hi⟩ := hi
    obtain ⟨hsecond, hnano, hleap⟩ := h.of_localTime hj
    dsimp only at hi
    split_ifs at hi
    cases hi
    refine ⟨?_, hnano, fun hn => ?_⟩
    · show (((j.second : Int) - offset) % 86400).toNat < 86400
      omega
    · have hend := hleap hn
      show (((j.second : Int) - offset) % 86400).toNat % 60 = 59
      omega

end Fields.OnClock

/-! ## Scanners -/

theorem inRange_eq_ok {low high n m : Nat} (h : inRange low high n = .ok m) :
    low ≤ m ∧ m ≤ high := by
  unfold inRange at h
  split_ifs at h with hrange
  cases h
  exact hrange

theorem le_of_scanShort {low high n : Nat} {cs rest : List Char}
    (h : Item.scanShort low high cs = .ok (n, rest)) : n ≤ high := by
  rw [Item.scanShort, bind_eq_ok] at h
  obtain ⟨⟨m, rest'⟩, -, h⟩ := h
  rw [bind_eq_ok] at h
  obtain ⟨k, hk, h⟩ := h
  cases h
  exact (inRange_eq_ok hk).2

theorem le_of_scanExact {width low high n : Nat} {cs rest : List Char}
    (h : scanExact width low high cs = .ok (n, rest)) : n ≤ high := by
  rw [scanExact, bind_eq_ok] at h
  obtain ⟨⟨m, rest'⟩, -, h⟩ := h
  rw [bind_eq_ok] at h
  obtain ⟨k, hk, h⟩ := h
  cases h
  exact (inRange_eq_ok hk).2

/-- A fraction is less than a second. -/
theorem lt_of_scanFraction {n : Nat} {cs rest : List Char} (h : scanFraction cs = .ok (n, rest)) :
    n < 1000000000 := by
  unfold scanFraction at h
  dsimp only at h
  split_ifs at h
  obtain ⟨rfl, -⟩ := Prod.mk.inj (Except.ok.inj h)
  obtain ⟨kept, hkept⟩ : ∃ kept, (cs.takeWhile Decimal.isDigit).take 9 = kept := ⟨_, rfl⟩
  have hdigits : ∀ c ∈ kept, c.isDigit = true := by
    intro c hc
    exact List.mem_takeWhile_imp (List.mem_of_mem_take (hkept ▸ hc))
  have hlength : kept.length ≤ 9 := hkept ▸ List.length_take_le 9 _
  rw [hkept]
  have hlt := Decimal.natOfDigits_lt hdigits
  calc Decimal.natOfDigits kept * 10 ^ (9 - kept.length)
      < 10 ^ kept.length * 10 ^ (9 - kept.length) :=
        Nat.mul_lt_mul_of_pos_right hlt (Nat.pow_pos (by decide))
    _ = 10 ^ 9 := by rw [← Nat.pow_add, Nat.add_sub_cancel' hlength]

/-- An offset consists of hours and minutes. -/
theorem minutes_of_scanOffset {style : OffsetStyle} {o : Int} {cs rest : List Char}
    (h : scanOffset style cs = .ok (o, rest)) : o % 60 = 0 := by
  unfold scanOffset at h
  split at h
  case h_1 => cases h; rfl
  case h_2 => cases h; rfl
  case h_3 =>
    simp only [bind_eq_ok] at h
    obtain ⟨⟨negative, cs₁⟩, -, ⟨hours, cs₂⟩, -, ⟨⟨⟩, cs₃⟩, -, ⟨minutes, cs₄⟩, -, h⟩ := h
    cases h
    dsimp only
    split_ifs <;> omega

/-- So does an offset with the minutes missing. -/
theorem minutes_of_scanLenientOffset {o : Int} {cs rest : List Char}
    (h : scanLenientOffset cs = .ok (o, rest)) : o % 60 = 0 := by
  unfold scanLenientOffset at h
  split at h
  case isTrue => cases h; rfl
  case isFalse =>
    split at h
    case h_1 => cases h; rfl
    case h_2 => cases h; rfl
    case h_3 =>
      simp only [bind_eq_ok] at h
      obtain ⟨⟨negative, cs₁⟩, -, ⟨hours, cs₂⟩, -, ⟨⟨⟩, cs₃⟩, -, h⟩ := h
      dsimp only at h
      split at h
      case h_1 =>
        cases h
        split_ifs <;> omega
      case h_2 =>
        rw [bind_eq_ok] at h
        obtain ⟨⟨minutes, cs₄⟩, -, h⟩ := h
        cases h
        dsimp only
        split_ifs <;> omega

/-- Named zones are whole hours away. -/
theorem minutes_of_scanZone {o : Int} {cs rest : List Char} (h : scanZone cs = .ok (o, rest)) :
    o % 60 = 0 := by
  unfold scanZone at h
  dsimp only at h
  split at h
  case isTrue => exact minutes_of_scanOffset h
  case isFalse =>
    split at h
    case h_1 hours _ =>
      cases h
      omega
    case h_2 =>
      split_ifs at h
      cases h
      rfl

/-! ## Readers -/

/-- **An item does not put anything into the fields that a clock cannot show.** -/
theorem Item.onClock_of_scan {item : Item} {f f' : Fields} {cs rest : List Char} (hf : f.OnClock)
    (h : item.scan f cs = .ok (f', rest)) : f'.OnClock := by
  cases item with
  | year =>
    simp only [scan, bind_eq_ok] at h
    obtain ⟨⟨y, cs'⟩, -, y', -, h⟩ := h
    cases h
    exact ⟨hf.1, hf.2, hf.3, hf.4, hf.5⟩
  | month =>
    simp only [scan, bind_eq_ok] at h
    obtain ⟨⟨n, cs'⟩, -, h⟩ := h
    cases h
    exact ⟨hf.1, hf.2, hf.3, hf.4, hf.5⟩
  | day =>
    simp only [scan, bind_eq_ok] at h
    obtain ⟨⟨n, cs'⟩, -, h⟩ := h
    cases h
    exact ⟨hf.1, hf.2, hf.3, hf.4, hf.5⟩
  | hour =>
    simp only [scan, bind_eq_ok] at h
    obtain ⟨⟨n, cs'⟩, hn, h⟩ := h
    cases h
    exact ⟨by rintro _ ⟨⟩; exact le_of_scanShort hn, hf.2, hf.3, hf.4, hf.5⟩
  | minute =>
    simp only [scan, bind_eq_ok] at h
    obtain ⟨⟨n, cs'⟩, hn, h⟩ := h
    cases h
    exact ⟨hf.1, by rintro _ ⟨⟩; exact le_of_scanShort hn, hf.3, hf.4, hf.5⟩
  | second =>
    simp only [scan, bind_eq_ok] at h
    obtain ⟨⟨n, cs'⟩, hn, h⟩ := h
    cases h
    exact ⟨hf.1, hf.2, by rintro _ ⟨⟩; exact le_of_scanShort hn, hf.4, hf.5⟩
  | fraction =>
    unfold scan at h
    dsimp only at h
    split at h
    case h_1 =>
      rw [bind_eq_ok] at h
      obtain ⟨⟨n, cs'⟩, hn, h⟩ := h
      cases h
      exact ⟨hf.1, hf.2, hf.3, by rintro _ ⟨⟩; exact lt_of_scanFraction hn, hf.5⟩
    case h_2 =>
      cases h
      exact hf
  | monthName =>
    simp only [scan, bind_eq_ok] at h
    obtain ⟨⟨n, cs'⟩, -, h⟩ := h
    cases h
    exact ⟨hf.1, hf.2, hf.3, hf.4, hf.5⟩
  | blank =>
    cases h
    exact hf
  | literal c =>
    simp only [scan, bind_eq_ok] at h
    obtain ⟨⟨⟨⟩, cs'⟩, -, h⟩ := h
    cases h
    exact hf

/-- Nor does a layout. -/
theorem Layout.onClock_of_scan {layout : Layout} {f f' : Fields} {cs rest : List Char}
    (hf : f.OnClock) (h : layout.scan f cs = .ok (f', rest)) : f'.OnClock := by
  induction layout generalizing f cs with
  | nil =>
    cases h
    exact hf
  | cons item items ih =>
    rw [scan, bind_eq_ok] at h
    obtain ⟨⟨f₁, cs₁⟩, hitem, h⟩ := h
    exact ih (item.onClock_of_scan hf hitem) h

theorem Fields.OnClock.empty : Fields.OnClock {} :=
  ⟨by rintro _ ⟨⟩, by rintro _ ⟨⟩, by rintro _ ⟨⟩, by rintro _ ⟨⟩, by rintro _ ⟨⟩⟩

theorem onClock_of_readDateTime? {layout : Layout} {cs : List Char} {i : Instant}
    (h : readDateTime? layout cs = some i) : i.OnClock := by
  rw [readDateTime?, toOption_eq_some, bind_eq_ok] at h
  obtain ⟨f, hf, hi⟩ := h
  rw [Layout.fields, bind_eq_ok] at hf
  obtain ⟨⟨f', rest⟩, hscan, hf⟩ := hf
  dsimp only at hf
  split_ifs at hf
  cases hf
  exact (Layout.onClock_of_scan .empty hscan).of_localTime hi

/-- Midnight is no leap second. -/
theorem onClock_midnight (d : Date) : (Instant.midnight d).OnClock := by
  refine ⟨?_, ?_, fun h => ?_⟩
  · show 0 < 86400
    decide
  · show 0 < 2000000000
    decide
  · have h : 1000000000 ≤ 0 := h
    omega

theorem onClock_of_readDate? {layout : Layout} {cs : List Char} {i : Instant}
    (h : readDate? layout cs = some i) : i.OnClock := by
  unfold readDate? at h
  split at h
  case h_1 d _ =>
    cases h
    exact onClock_midnight d
  case h_2 => cases h

/-- The internet form. -/
theorem onClock_of_internet {cs : List Char} {i : Instant} (h : internet cs = .ok i) :
    i.OnClock := by
  unfold internet at h
  simp only [bind_eq_ok] at h
  obtain ⟨⟨year, cs₁⟩, -, ⟨⟨⟩, cs₂⟩, -, ⟨month, cs₃⟩, -, ⟨⟨⟩, cs₄⟩, -, ⟨day, cs₅⟩, -, ⟨⟨⟩, cs₆⟩, -,
    ⟨hour, cs₇⟩, hhour, ⟨⟨⟩, cs₈⟩, -, ⟨minute, cs₉⟩, hminute, ⟨⟨⟩, cs₁₀⟩, -,
    ⟨second, cs₁₁⟩, hsecond, ⟨nano, cs₁₂⟩, hnano, ⟨offset, cs₁₃⟩, hoffset, h⟩ := h
  have hfraction : ∀ n ∈ nano, n < 1000000000 := by
    unfold scanOptionalFraction at hnano
    split at hnano
    case h_1 =>
      rw [bind_eq_ok] at hnano
      obtain ⟨⟨n, cs'⟩, hn, hnano⟩ := hnano
      cases hnano
      rintro _ ⟨⟩
      exact lt_of_scanFraction hn
    case h_2 =>
      cases hnano
      rintro _ ⟨⟩
  split_ifs at h
  refine Fields.OnClock.of_instant ⟨?_, ?_, ?_, hfraction, ?_⟩ h
  · rintro _ ⟨⟩
    exact le_of_scanExact hhour
  · rintro _ ⟨⟩
    exact le_of_scanExact hminute
  · rintro _ ⟨⟩
    exact le_of_scanExact hsecond
  · rintro _ ⟨⟩
    exact minutes_of_scanOffset hoffset

theorem onClock_of_scanBefore {layout : Layout} {f f' : Fields} {cs rest : List Char}
    (hf : f.OnClock) (h : scanBefore layout f cs = .ok (f', rest)) : f'.OnClock := by
  rw [scanBefore, bind_eq_ok] at h
  obtain ⟨⟨f₁, cs₁⟩, hscan, h⟩ := h
  dsimp only at h
  split_ifs at h
  cases h
  exact Layout.onClock_of_scan hf hscan

/-- The lenient form. -/
theorem onClock_of_lenient {cs : List Char} {i : Instant} (h : lenient cs = .ok i) :
    i.OnClock := by
  unfold lenient at h
  simp only [bind_eq_ok] at h
  obtain ⟨⟨f₁, cs₁⟩, hdate, ⟨⟨⟩, cs₂⟩, -, ⟨f₂, cs₃⟩, htime, ⟨offset, cs₄⟩, hoffset, h⟩ := h
  have hf := onClock_of_scanBefore (onClock_of_scanBefore .empty hdate) htime
  split_ifs at h
  have hf' : Fields.OnClock { f₂ with offset := some offset } := by
    refine ⟨hf.1, hf.2, hf.3, hf.4, ?_⟩
    rintro _ ⟨⟩
    exact minutes_of_scanLenientOffset hoffset
  exact hf'.of_instant h

/-- The mail form. -/
theorem onClock_of_mail {cs : List Char} {i : Instant} (h : mail cs = .ok i) : i.OnClock := by
  unfold mail at h
  simp only [bind_eq_ok] at h
  obtain ⟨⟨weekday, cs₁⟩, -, ⟨day, cs₂⟩, -, day', -, ⟨⟨⟩, cs₃⟩, -, ⟨month, cs₄⟩, -, ⟨⟨⟩, cs₅⟩, -,
    ⟨year, cs₆⟩, -, year', -, ⟨⟨⟩, cs₇⟩, -, ⟨hour, cs₈⟩, hhour, ⟨⟨⟩, cs₉⟩, -,
    ⟨minute, cs₁₀⟩, hminute, ⟨second, cs₁₁⟩, hsecond, ⟨⟨⟩, cs₁₂⟩, -, ⟨offset, cs₁₃⟩, hoffset, h⟩ := h
  have hsixty : ∀ n ∈ second, n ≤ 60 := by
    unfold scanOptionalSecond at hsecond
    split at hsecond
    case h_1 =>
      rw [bind_eq_ok] at hsecond
      obtain ⟨⟨n, cs'⟩, hn, hsecond⟩ := hsecond
      cases hsecond
      rintro _ ⟨⟩
      exact le_of_scanExact hn
    case h_2 =>
      cases hsecond
      rintro _ ⟨⟩
  split_ifs at h
  refine Fields.OnClock.of_instant ⟨?_, ?_, hsixty, ?_, ?_⟩ h
  · rintro _ ⟨⟩
    exact le_of_scanExact hhour
  · rintro _ ⟨⟩
    exact le_of_scanExact hminute
  · rintro _ ⟨⟩
  · rintro _ ⟨⟩
    exact minutes_of_scanZone hoffset

theorem Instant.eq_of_checked {i j : Instant} (h : i.checked = some j) : i = j := by
  unfold checked at h
  split_ifs at h
  exact Option.some.inj h

theorem onClock_of_ofMillis? {x : Float} {i : Instant} (h : ofMillis? x = some i) : i.OnClock := by
  unfold ofMillis? at h
  split_ifs at h
  obtain ⟨millis, hmillis⟩ : ∃ millis : Int,
      Decimal.clampToInt (-Decimal.twoTo 63) (Decimal.twoTo 63 - 1) x = millis := ⟨_, rfl⟩
  rw [hmillis] at h
  rw [← Instant.eq_of_checked h]
  refine ⟨?_, ?_, fun hleap => ?_⟩
  · show (millis / 1000 % 86400).toNat < 86400
    omega
  · show (millis % 1000).toNat * 1000000 < 2000000000
    omega
  · have hleap : 1000000000 ≤ (millis % 1000).toNat * 1000000 := hleap
    omega

theorem onClock_of_ofNumber? {hint : Option String} {x : Float} {i : Instant}
    (h : ofNumber? hint x = some i) : i.OnClock := by
  unfold ofNumber? at h
  split_ifs at h
  · exact onClock_of_ofMillis? h
  · exact onClock_of_ofMillis? h

/-! ## Everything that is read -/

theorem onClock_or {x y : Option Instant} (hx : ∀ i ∈ x, i.OnClock) (hy : ∀ i ∈ y, i.OnClock) :
    ∀ i ∈ x.or y, i.OnClock := by
  intro i hi
  cases x with
  | none => exact hy i hi
  | some j => exact hx i hi

theorem onClock_of_readAny? {cs : List Char} : ∀ i ∈ readAny? cs, i.OnClock := by
  refine onClock_or (onClock_or (onClock_or (onClock_or ?_ ?_) ?_) ?_) ?_
  · exact fun i hi => onClock_of_internet (toOption_eq_some.mp hi)
  · exact fun i hi => onClock_of_mail (toOption_eq_some.mp hi)
  · intro i hi
    obtain ⟨layout, -, h⟩ := List.exists_of_findSome?_eq_some hi
    exact onClock_of_readDateTime? h
  · intro i hi
    obtain ⟨layout, -, h⟩ := List.exists_of_findSome?_eq_some hi
    exact onClock_of_readDate? h
  · intro i hi
    obtain ⟨x, -, h⟩ := Option.bind_eq_some_iff.mp hi
    exact onClock_of_ofMillis? h

/-- **Each instant that is read is one that a clock can show.** -/
theorem onClock_of_read? {hint : Option String} {cs : List Char} {i : Instant}
    (h : read? hint cs = some i) : i.OnClock := by
  cases hint with
  | none => exact onClock_of_readAny? i h
  | some name =>
    unfold read? at h
    dsimp only at h
    split at h
    case isTrue =>
      split at h
      case h_1 => exact onClock_of_ofNumber? h
      case h_2 => exact onClock_of_readAny? i h
    case isFalse =>
      refine onClock_or (fun j hj => ?_) onClock_of_readAny? i h
      obtain ⟨layout, -, hday⟩ := Option.bind_eq_some_iff.mp hj
      exact onClock_of_readDate? hday

/-! ## Instants that are moved -/

namespace Instant

variable {i j : Instant} {count : Int}

/-- **Moving by seconds** leaves a leap second behind. -/
theorem OnClock.of_addSeconds? (hi : i.OnClock) (h : i.addSeconds? count = some j) :
    j.OnClock := by
  have hsecond : i.second < 86400 := hi.second_lt
  have hnano : i.nano < 2000000000 := hi.nano_lt
  have hleap : 1000000000 ≤ i.nano → i.second % 60 = 59 := hi.leap
  rw [← eq_of_checked h]
  refine ⟨?_, ?_, fun hstill => ?_⟩
  · show (_ % (86400 : Int)).toNat < 86400
    omega
  · refine Nat.lt_of_le_of_lt ?_ hnano
    dsimp only
    split_ifs
    · exact Nat.sub_le _ _
    · exact Nat.le_refl _
  · -- a leap second is left where it is only when nothing moves
    have hstill : 1000000000 ≤ (if 1000000000 ≤ i.nano && count ≠ 0 then i.nano - 1000000000
        else i.nano) := hstill
    have hzero : 1000000000 ≤ i.nano ∧ count = 0 := by
      split_ifs at hstill with hmoved
      · omega
      · simp only [Bool.and_eq_true, decide_eq_true_eq, not_and, ne_eq, not_not] at hmoved
        exact ⟨hstill, hmoved hstill⟩
    have hend := hleap hzero.1
    show (((if 1000000000 ≤ i.nano && count < 0 then (i.second : Int) + 1 else i.second) + count) %
      86400).toNat % 60 = 59
    rw [hzero.2, if_neg (by simp)]
    omega

/-- **Moving by months** keeps the time of day. -/
theorem OnClock.of_addMonths? (hi : i.OnClock) (h : i.addMonths? count = some j) :
    j.OnClock := by
  unfold addMonths? at h
  dsimp only at h
  split_ifs at h
  cases h
  exact ⟨hi.second_lt, hi.nano_lt, hi.leap⟩

end Instant

end Reshape.Calendar
