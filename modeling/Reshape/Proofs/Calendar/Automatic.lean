/-
# Reshape.Proofs.Calendar.Automatic -- what is known about a day without its format

A text that the named formats write is read without a hint as follows. `YYYY-MM-DD` and `MM/DD/YYYY`
are among the layouts that are tried, and give the day back. `DD/MM/YYYY` is not: such a text is
taken for the month first, so that it gives another day when the day of the month can be a month,
and none when it cannot. `MMM DD, YYYY` is not tried either, and nothing else reads a text that
begins with a letter.
-/

import Mathlib.Data.List.TakeDrop
import Reshape.Proofs.Calendar.Internet

namespace Reshape.Calendar

open Decimal (isDigit)

variable {i : Instant}

/-! ## Layouts that refuse a text -/

theorem Layout.scan_append (layout layout' : Layout) (f : Fields) (cs : List Char) :
    (layout ++ layout').scan f cs = layout.scan f cs >>= fun r => layout'.scan r.1 r.2 := by
  induction layout generalizing f cs with
  | nil => rfl
  | cons item items ih =>
    rw [List.cons_append, scan, scan, bind_assoc]
    congr 1
    funext r
    exact ih r.1 r.2

theorem readDate?_eq_none {layout : Layout} {cs : List Char}
    (h : ∃ e, layout.scan {} cs = .error e) : readDate? layout cs = none := by
  obtain ⟨e, he⟩ := h
  rw [readDate?, Layout.fields, he]
  rfl

/-- A text in which a layout finds something behind its end. -/
theorem readDate?_of_rest {layout : Layout} {f : Fields} {c : Char} {cs rest : List Char}
    (h : layout.scan {} cs = .ok (f, c :: rest)) : readDate? layout cs = none := by
  rw [readDate?, Layout.fields, h]
  rfl

theorem readDateTime?_eq_none {layout : Layout} {cs : List Char}
    (h : ∃ e, layout.scan {} cs = .error e) : readDateTime? layout cs = none := by
  obtain ⟨e, he⟩ := h
  rw [readDateTime?, Layout.fields, he]
  rfl

/-- Each layout with a time begins with year, month and day, and needs more than these. -/
theorem Layout.exists_of_mem_dateTimes {layout : Layout} (h : layout ∈ dateTimes) :
    ∃ tail, layout = yearFirst '-' ++ tail ∧ ∀ f, ∃ e, Layout.scan tail f [] = .error e := by
  simp only [dateTimes, List.append_assoc, List.mem_cons, List.not_mem_nil, or_false] at h
  rcases h with rfl | rfl | rfl | rfl | rfl
  all_goals exact ⟨_, rfl, fun f => ⟨_, rfl⟩⟩

/-- A text that is a day, or does not begin with one, is none with a time. -/
theorem findSome?_dateTimes_eq_none {cs : List Char}
    (h : (∃ f, (Layout.yearFirst '-').scan {} cs = .ok (f, [])) ∨
      ∃ e, (Layout.yearFirst '-').scan {} cs = .error e) :
    (Layout.dateTimes.findSome? fun layout => readDateTime? layout cs) = none := by
  rw [List.findSome?_eq_none_iff]
  intro layout hlayout
  obtain ⟨tail, rfl, htail⟩ := Layout.exists_of_mem_dateTimes hlayout
  apply readDateTime?_eq_none
  rw [Layout.scan_append]
  rcases h with ⟨f, hf⟩ | ⟨e, he⟩
  · rw [hf]
    exact htail f
  · rw [he]
    exact ⟨e, rfl⟩

/-- **What is left to try** for a text that is no instant and does not begin with a year and a
dash. -/
theorem readAny?_eq {cs : List Char} (hinternet : ∃ e, internet cs = .error e)
    (hmail : ∃ e, mail cs = .error e) (hyear : ∃ e, (Layout.yearFirst '-').scan {} cs = .error e) :
    readAny? cs = (readDate? Layout.monthFirst cs).or
      ((readDate? (Layout.yearFirst '/') cs).or ((Decimal.parseChars? cs).bind ofMillis?)) := by
  have hday := readDate?_eq_none hyear
  have htimes := findSome?_dateTimes_eq_none (.inr hyear)
  obtain ⟨e, he⟩ := hinternet
  obtain ⟨e', he'⟩ := hmail
  rw [readAny?, he, he', htimes]
  simp only [Except.toOption, Layout.dates, List.findSome?_cons, List.findSome?_nil, hday,
    Option.none_or]
  cases readDate? Layout.monthFirst cs with
  | some j => rfl
  | none => cases readDate? (Layout.yearFirst '/') cs <;> rfl

/-! ## Texts that begin with a digit or a letter -/

theorem exists_scanName_eq_error {names : List String} {cs : List Char}
    (h : ∀ n ∈ names, n.toList ≠ (cs.take 3).map Decimal.lowerAscii) :
    ∃ e, scanName names cs = .error e := by
  have hnone : (names.findIdx? fun n => n.toList == (cs.take 3).map Decimal.lowerAscii) = none := by
    rw [List.findIdx?_eq_none_iff]
    intro n hn
    exact beq_false_of_ne (h n hn)
  unfold scanName
  rw [hnone]
  split_ifs
  · exact ⟨_, rfl⟩
  · exact ⟨_, rfl⟩

theorem scanWeekday_of_error {cs : List Char} (h : ∃ e, scanName weekdayNames cs = .error e) :
    scanWeekday cs = .ok (none, cs) := by
  obtain ⟨e, he⟩ := h
  rw [scanWeekday, he]

theorem lowerAscii_of_isDigit {d : Char} (hd : isDigit d = true) : Decimal.lowerAscii d = d := by
  have hrange : 48 ≤ d.toNat ∧ d.toNat ≤ 57 := Char.isDigit_iff_toNat.mp hd
  have hupper : ¬ ('A' ≤ d ∧ d ≤ 'Z') := by
    intro h
    have hlow : 65 ≤ d.toNat := h.1
    omega
  simp [Decimal.lowerAscii, hupper]

/-- A word that begins with a letter does not begin with a digit in either case. -/
theorem ne_map_lowerAscii_of_isDigit {w : List Char} (hw : isDigit (w.headD ' ') = false) {d : Char}
    (hd : isDigit d = true) (cs : List Char) : w ≠ (d :: cs).map Decimal.lowerAscii := by
  rintro rfl
  rw [List.map_cons, lowerAscii_of_isDigit hd, List.headD_cons, hd] at hw
  cases hw

theorem exists_scanName_weekdayNames_eq_error {d : Char} (hd : isDigit d = true) (cs : List Char) :
    ∃ e, scanName weekdayNames (d :: cs) = .error e := by
  have hletters : ∀ n ∈ weekdayNames, isDigit (n.toList.headD ' ') = false := by decide
  apply exists_scanName_eq_error
  intro n hn
  exact ne_map_lowerAscii_of_isDigit (hletters n hn) hd (cs.take 2)

/-- A text without a sign that is no word and does not begin as a decimal is no number. -/
theorem parseChars?_eq_none {c : Char} {cs : List Char} (hminus : c ≠ '-') (hplus : c ≠ '+')
    (hword : ∀ w ∈ ["inf", "infinity", "nan"], w.toList ≠ (c :: cs).map Decimal.lowerAscii)
    (hmagnitude : Decimal.magnitude? (c :: cs) = none) : Decimal.parseChars? (c :: cs) = none := by
  have hsign : Decimal.spanSign (c :: cs) = (false, c :: cs) := by
    unfold Decimal.spanSign
    split
    case h_1 heq => exact absurd (List.cons.inj heq).1 hminus
    case h_2 heq => exact absurd (List.cons.inj heq).1 hplus
    case h_3 => rfl
  have hnone : Decimal.word? (c :: cs) = none := by
    obtain ⟨w, hw⟩ : ∃ w, String.ofList ((c :: cs).map Decimal.lowerAscii) = w := ⟨_, rfl⟩
    have hne : ∀ v ∈ ["inf", "infinity", "nan"], w ≠ v := by
      intro v hv heq
      apply hword v hv
      rw [← heq, ← hw, String.toList_ofList]
    rw [Decimal.word?, hw]
    simp [hne "inf" (by simp), hne "infinity" (by simp), hne "nan" (by simp)]
  rw [Decimal.parseChars?, hsign]
  simp [hnone, hmagnitude]

/-- Mail has a blank behind the day. -/
theorem exists_mail_eq_error {a b c : Char} (ha : isDigit a = true) (hb : isDigit b = true)
    (hc : Text.isBlank c = false) (rest : List Char) :
    ∃ e, mail (a :: b :: c :: rest) = .error e := by
  have hdigits : ∀ d ∈ [a, b], isDigit d = true := by simp [ha, hb]
  have hday : scanNumber 1 2 (a :: b :: c :: rest) = .ok (Decimal.natOfDigits [a, b], c :: rest) :=
    scanNumber_append hdigits (by decide) (by simp) (by simp) (.inl rfl)
  have hblanks : scanBlanks (c :: rest) = .error .invalid := by
    rw [scanBlanks, hc]
    rfl
  rw [mail, trimStart_cons (isBlank_of_isDigit ha),
    scanWeekday_of_error (exists_scanName_weekdayNames_eq_error ha _), ok_bind]
  dsimp only
  rw [trimStart_cons (isBlank_of_isDigit ha), hday, ok_bind]
  dsimp only
  cases inRange 1 31 (Decimal.natOfDigits [a, b]) with
  | error e => exact ⟨e, rfl⟩
  | ok n =>
    rw [ok_bind, hblanks]
    exact ⟨_, rfl⟩

/-! ## Two digits and a slash -/

theorem exists_padded_two {n : Nat} (h : n < 100) :
    ∃ a b, (padded 2 n).toList = [a, b] ∧ isDigit a = true ∧ isDigit b = true := by
  obtain ⟨a, b, heq⟩ := List.length_eq_two.mp (length_padded (by decide : 0 < 2) h)
  exact ⟨a, b, heq, isDigit_of_mem_padded (by rw [heq]; simp),
    isDigit_of_mem_padded (by rw [heq]; simp)⟩

theorem parseChars?_slash (n : Nat) (rest : List Char) :
    Decimal.parseChars? ((padded 2 n).toList ++ '/' :: rest) = none := by
  have hmagnitude : Decimal.magnitude? ((padded 2 n).toList ++ '/' :: rest) = none := by
    have hspan : Decimal.spanDigits ((padded 2 n).toList ++ '/' :: rest) =
        ((padded 2 n).toList, '/' :: rest) := by
      rw [Decimal.spanDigits, List.span_eq_takeWhile_dropWhile, takeWhile_padded 2 n rfl,
        List.dropWhile_append_of_pos fun c => isDigit_of_mem_padded]
      rfl
    have hexponent : Decimal.exponent? ('/' :: rest) = none := rfl
    rw [Decimal.magnitude?, hspan]
    simp [hexponent]
  obtain ⟨d, ds, heq, hd⟩ := exists_padded_eq_cons 2 n
  rw [heq, List.cons_append] at hmagnitude ⊢
  refine parseChars?_eq_none ?_ ?_ ?_ hmagnitude
  · rintro rfl
    cases hd
  · rintro rfl
    cases hd
  · have hletters : ∀ w ∈ ["inf", "infinity", "nan"], isDigit (w.toList.headD ' ') = false := by
      decide
    intro w hw
    exact ne_map_lowerAscii_of_isDigit (hletters w hw) hd _

theorem exists_yearText_four {y : Int} (hy : 0 ≤ y ∧ y ≤ 9999) :
    ∃ a b c d, (yearText y).toList = [a, b, c, d] ∧ ∀ e ∈ [a, b, c, d], isDigit e = true := by
  rw [yearText_of_le hy.1 hy.2]
  have hlength : (padded 4 y.toNat).toList.length = 3 + 1 := length_padded (by decide) (by omega)
  obtain ⟨a, ds, heq⟩ := List.exists_of_length_succ _ hlength
  rw [heq, List.length_cons, Nat.add_right_cancel_iff] at hlength
  obtain ⟨b, c, d, rfl⟩ := List.length_eq_three.mp hlength
  exact ⟨a, b, c, d, heq, fun e he => isDigit_of_mem_padded (heq ▸ he)⟩

section Slash

variable {n : Nat} (hn : n < 100) (rest : List Char)
include hn

theorem scan_year_slash (f : Fields) :
    Item.year.scan f ((padded 2 n).toList ++ '/' :: rest) =
      .ok ({ f with year := some (n : Int) }, '/' :: rest) := by
  have hrange : -Decimal.twoTo 31 ≤ (n : Int) ∧ (n : Int) < Decimal.twoTo 31 := by
    have hsize : Decimal.twoTo 31 = 2147483648 := rfl
    omega
  rw [Item.scan, scanYear_padded (by decide) (by decide) hn (.inr rfl), ok_bind]
  dsimp only
  rw [Item.yearInRange, if_pos hrange]
  rfl

/-- **Two digits and a slash** can only begin a day with the month or the year first. -/
theorem readAny?_slash :
    readAny? ((padded 2 n).toList ++ '/' :: rest) =
      (readDate? Layout.monthFirst ((padded 2 n).toList ++ '/' :: rest)).or
        (readDate? (Layout.yearFirst '/') ((padded 2 n).toList ++ '/' :: rest)) := by
  have hinternet : ∃ e, internet ((padded 2 n).toList ++ '/' :: rest) = .error e := by
    have hfew : (((padded 2 n).toList ++ '/' :: rest).takeWhile isDigit).length < 4 := by
      rw [takeWhile_padded 2 n rfl, length_padded (by decide) hn]
      decide
    obtain ⟨e, he⟩ := exists_scanNumber_eq_error hfew 4
    rw [internet, he]
    exact ⟨e, rfl⟩
  have hmail : ∃ e, mail ((padded 2 n).toList ++ '/' :: rest) = .error e := by
    obtain ⟨a, b, heq, ha, hb⟩ := exists_padded_two hn
    rw [heq]
    exact exists_mail_eq_error ha hb rfl rest
  have hyear : ∃ e, (Layout.yearFirst '-').scan {} ((padded 2 n).toList ++ '/' :: rest) =
      .error e := by
    rw [Layout.yearFirst, Layout.scan, scan_year_slash hn, ok_bind]
    exact ⟨_, rfl⟩
  rw [readAny?_eq hinternet hmail hyear, parseChars?_slash, Option.bind_none, Option.or_none]

/-- A number that is no month refuses the month first. -/
theorem readDate?_monthFirst_eq_none (h : 12 < n) :
    readDate? Layout.monthFirst ((padded 2 n).toList ++ '/' :: rest) = none := by
  apply readDate?_eq_none
  rw [Layout.monthFirst, Layout.scan, Item.scan, scanShort_padded hn, inRange,
    if_neg (fun hrange => by omega)]
  exact ⟨_, rfl⟩

end Slash

/-- A year of four digits is too long for a day. -/
theorem readDate?_yearFirst_eq_none {m n : Nat} (hm : m < 100) (hn : 1 ≤ n ∧ n ≤ 12) {y : Int}
    (hy : 0 ≤ y ∧ y ≤ 9999) :
    readDate? (Layout.yearFirst '/') ((padded 2 m).toList ++
      '/' :: ((padded 2 n).toList ++ '/' :: (yearText y).toList)) = none := by
  obtain ⟨a, b, c, d, hyear, hdigits⟩ := exists_yearText_four hy
  have hfront : ∀ e ∈ [a, b], isDigit e = true :=
    fun e he => hdigits e (List.mem_append_left [c, d] he)
  have hnumber : scanNumber 1 2 [a, b, c, d] = .ok (Decimal.natOfDigits [a, b], [c, d]) :=
    scanNumber_append hfront (by decide) (by simp) (by simp) (.inl rfl)
  have hday : Item.scanShort 1 31 [a, b, c, d] =
      (inRange 1 31 (Decimal.natOfDigits [a, b])).map fun n => (n, [c, d]) := by
    rw [Item.scanShort, trimStart_cons (isBlank_of_isDigit (hdigits a List.mem_cons_self)), hnumber,
      ok_bind]
    dsimp only
    cases inRange 1 31 (Decimal.natOfDigits [a, b]) <;> rfl
  have hmonth := scanShort_padded_of_le (by omega : n < 100) hn.1 hn.2 ('/' :: [a, b, c, d])
  have hscan : (Layout.yearFirst '/').scan {} ((padded 2 m).toList ++
      '/' :: ((padded 2 n).toList ++ '/' :: [a, b, c, d])) =
        (inRange 1 31 (Decimal.natOfDigits [a, b])).map fun day =>
          ({ year := some (m : Int), month := some n, day := some day }, [c, d]) := by
    rw [Layout.yearFirst, Layout.scan, scan_year_slash hm, ok_bind]
    simp only [Layout.scan, Item.scan, scanChar_cons, ok_bind, pure_bind, hmonth, hday]
    cases inRange 1 31 (Decimal.natOfDigits [a, b]) <;> rfl
  rw [hyear]
  cases h : inRange 1 31 (Decimal.natOfDigits [a, b]) with
  | error e => exact readDate?_eq_none ⟨e, by rw [hscan, h]; rfl⟩
  | ok day => exact readDate?_of_rest (by rw [hscan, h]; rfl)

/-! ## Names of months -/

/-- The name of a month has three letters, of which the first is a capital, and is no other word. -/
theorem monthNameText_cases {m : Nat} (h : 1 ≤ m) (h' : m ≤ 12) :
    ∃ c d e, (monthNameText m).toList = [c, d, e] ∧ ('A' ≤ c ∧ c ≤ 'Z') ∧
      [c, d, e].map Decimal.lowerAscii ∉
        (weekdayNames ++ ["inf", "infinity", "nan"]).map fun w => w.toList.take 3 := by
  interval_cases m <;> exact ⟨_, _, _, rfl, by decide, by decide⟩

section Capital

variable {c : Char} (hc : 'A' ≤ c ∧ c ≤ 'Z') (cs : List Char)
include hc

theorem isDigit_of_capital : isDigit c = false := by
  have hlow : 65 ≤ c.toNat := hc.1
  rw [Bool.eq_false_iff]
  intro hdigit
  have hrange : 48 ≤ c.toNat ∧ c.toNat ≤ 57 := Char.isDigit_iff_toNat.mp hdigit
  omega

theorem isBlank_of_capital : Text.isBlank c = false := by
  have hlow : 65 ≤ c.toNat := hc.1
  have hhigh : c.toNat ≤ 90 := hc.2
  simp only [Text.isBlank, Text.inRanges, List.any_cons, List.any_nil, Bool.or_false,
    Bool.or_eq_false_iff, Bool.and_eq_false_iff, decide_eq_false_iff_not]
  omega

/-- No number begins with a letter. -/
theorem exists_scanNumber_capital {least : Nat} (hleast : 0 < least) (most : Nat) :
    ∃ e, scanNumber least most (c :: cs) = .error e := by
  apply exists_scanNumber_eq_error
  rw [List.takeWhile_cons_of_neg (by simp [isDigit_of_capital hc])]
  exact hleast

theorem exists_scanYear_capital : ∃ e, Item.scanYear (c :: cs) = .error e := by
  obtain ⟨e, he⟩ := exists_scanNumber_capital hc cs (by decide : 0 < 1) 4
  rw [Item.scanYear, trimStart_cons (isBlank_of_capital hc)]
  split
  case h_1 heq =>
    rw [(List.cons.inj heq).1] at hc
    exact absurd hc (by decide)
  case h_2 heq =>
    rw [(List.cons.inj heq).1] at hc
    exact absurd hc (by decide)
  case h_3 =>
    rw [he]
    exact ⟨e, rfl⟩

theorem exists_scanShort_capital (low high : Nat) :
    ∃ e, Item.scanShort low high (c :: cs) = .error e := by
  obtain ⟨e, he⟩ := exists_scanNumber_capital hc cs (by decide : 0 < 1) 2
  rw [Item.scanShort, trimStart_cons (isBlank_of_capital hc), he]
  exact ⟨e, rfl⟩

theorem magnitude?_capital : Decimal.magnitude? (c :: cs) = none := by
  have hspan : Decimal.spanDigits (c :: cs) = ([], c :: cs) := by
    rw [Decimal.spanDigits, List.span_eq_takeWhile_dropWhile,
      List.takeWhile_cons_of_neg (by simp [isDigit_of_capital hc]),
      List.dropWhile_cons_of_neg (by simp [isDigit_of_capital hc])]
  have hpoint : c ≠ '.' := by
    rintro rfl
    exact absurd hc (by decide)
  rw [Decimal.magnitude?, hspan]
  dsimp only
  split
  case h_1 heq => exact absurd (List.cons.inj heq).1 hpoint
  case h_2 => rfl

theorem exists_mail_capital (hweekday : ∃ e, scanName weekdayNames (c :: cs) = .error e) :
    ∃ e, mail (c :: cs) = .error e := by
  have hblank := trimStart_cons (isBlank_of_capital hc) cs
  obtain ⟨e, he⟩ := exists_scanNumber_capital hc cs (by decide : 0 < 1) 2
  rw [mail, hblank, scanWeekday_of_error hweekday, ok_bind]
  dsimp only
  rw [hblank, he]
  exact ⟨e, rfl⟩

theorem exists_yearFirst_capital (sep : Char) :
    ∃ e, (Layout.yearFirst sep).scan {} (c :: cs) = .error e := by
  obtain ⟨e, he⟩ := exists_scanYear_capital hc cs
  rw [Layout.yearFirst, Layout.scan, Item.scan, he]
  exact ⟨e, rfl⟩

theorem exists_monthFirst_capital : ∃ e, Layout.monthFirst.scan {} (c :: cs) = .error e := by
  obtain ⟨e, he⟩ := exists_scanShort_capital hc cs 1 12
  rw [Layout.monthFirst, Layout.scan, Item.scan, he]
  exact ⟨e, rfl⟩

end Capital

/-- **The name of a month** is the beginning of nothing that is tried. -/
theorem readAny?_monthNameText {m : Nat} (h : 1 ≤ m) (h' : m ≤ 12) (rest : List Char) :
    readAny? ((monthNameText m).toList ++ rest) = none := by
  obtain ⟨c, d, e, heq, hc, hwords⟩ := monthNameText_cases h h'
  have hne : ∀ w ∈ weekdayNames ++ ["inf", "infinity", "nan"],
      w.toList.take 3 ≠ [c, d, e].map Decimal.lowerAscii :=
    fun w hw heq => hwords (List.mem_map.mpr ⟨w, hw, heq⟩)
  rw [heq]
  show readAny? (c :: d :: e :: rest) = none
  have hinternet : ∃ f, internet (c :: d :: e :: rest) = .error f := by
    obtain ⟨f, hf⟩ := exists_scanNumber_capital hc (d :: e :: rest) (by decide : 0 < 4) 4
    rw [internet, hf]
    exact ⟨f, rfl⟩
  have hweekday : ∃ f, scanName weekdayNames (c :: d :: e :: rest) = .error f := by
    apply exists_scanName_eq_error
    intro w hw
    have hthree : w.toList.take 3 = w.toList := by
      have hall : ∀ w ∈ weekdayNames, w.toList.take 3 = w.toList := by decide
      exact hall w hw
    rw [← hthree]
    exact hne w (List.mem_append_left _ hw)
  have hnumber : Decimal.parseChars? (c :: d :: e :: rest) = none := by
    refine parseChars?_eq_none ?_ ?_ ?_ (magnitude?_capital hc _)
    · rintro rfl
      exact absurd hc (by decide)
    · rintro rfl
      exact absurd hc (by decide)
    · intro w hw heq
      apply hne w (List.mem_append_right _ hw)
      rw [heq]
      rfl
  rw [readAny?_eq hinternet (exists_mail_capital hc _ hweekday) (exists_yearFirst_capital hc _ '-'),
    readDate?_eq_none (exists_monthFirst_capital hc _),
    readDate?_eq_none (exists_yearFirst_capital hc _ '/'), hnumber]
  rfl

/-! ## Days in the named formats -/

variable (hyear : 0 ≤ i.date.year ∧ i.date.year ≤ 9999)
include hyear

/-- Year, month and day are no instant, and no other layout is tried before them. -/
theorem readAny?_write_yearFirst :
    readAny? ((Layout.yearFirst '-').write i).toList = some (Instant.midnight i.date) := by
  have hlayout : (Layout.yearFirst '-').IsOfDay :=
    Layout.isOfDay_of_named? (rfl : Layout.named? "YYYY-MM-DD" = _)
  have hday := hlayout.readDate?_write hyear
  have htimes := findSome?_dateTimes_eq_none
    (.inl ⟨_, Layout.scan_write (hlayout.shows hyear) hlayout.divided {}⟩)
  have htext : ((Layout.yearFirst '-').write i).toList = (yearText i.date.year).toList ++
      '-' :: ((padded 2 i.date.month).toList ++ '-' :: ((padded 2 i.date.day).toList ++ [])) := by
    simp [Layout.toList_write, Layout.yearFirst, Item.write]
  have hinternet : internet ((Layout.yearFirst '-').write i).toList = .error .tooShort := by
    rw [htext]
    simp only [internet, scanNumber_yearText hyear, scanExact_month, scanExact_day, scanChar_cons,
      ok_bind]
    rfl
  have hmail : ∃ e, mail ((Layout.yearFirst '-').write i).toList = .error e := by
    obtain ⟨a, b, c, d, heq, hdigits⟩ := exists_yearText_four hyear
    rw [htext, heq]
    exact exists_mail_eq_error (hdigits a (by simp)) (hdigits b (by simp))
      (isBlank_of_isDigit (hdigits c (by simp))) _
  obtain ⟨e, he⟩ := hmail
  rw [readAny?, hinternet, he, htimes]
  simp only [Except.toOption, Layout.dates, List.findSome?_cons, hday, Option.none_or,
    Option.some_or]

theorem readAny?_write_monthFirst :
    readAny? (Layout.monthFirst.write i).toList = some (Instant.midnight i.date) := by
  have hlayout : Layout.monthFirst.IsOfDay :=
    Layout.isOfDay_of_named? (rfl : Layout.named? "MM/DD/YYYY" = _)
  have hday := hlayout.readDate?_write hyear
  have htext : (Layout.monthFirst.write i).toList = (padded 2 i.date.month).toList ++
      '/' :: ((padded 2 i.date.day).toList ++ '/' :: (yearText i.date.year).toList) := by
    simp [Layout.toList_write, Layout.monthFirst, Item.write]
  rw [htext] at hday ⊢
  rw [readAny?_slash (i.isDay_date.month_le.trans_lt (by decide)), hday, Option.some_or]

/-- **The day first is taken for the month first**, where it can be. -/
theorem readAny?_write_dayFirst :
    readAny? (Layout.dayFirst.write i).toList =
      if i.date.day ≤ 12 then some (Instant.midnight ⟨i.date.year, i.date.day, i.date.month⟩)
      else none := by
  have hmonth := i.isDay_date.month_le
  have hday := i.day_date_le
  have htext (i : Instant) : (Layout.dayFirst.write i).toList = (padded 2 i.date.day).toList ++
      '/' :: ((padded 2 i.date.month).toList ++ '/' :: (yearText i.date.year).toList) := by
    simp [Layout.toList_write, Layout.dayFirst, Item.write]
  split_ifs with hle
  · -- the text is that of the day with the two exchanged, the month first
    obtain ⟨j, hj⟩ : ∃ j, j = Instant.midnight ⟨i.date.year, i.date.day, i.date.month⟩ := ⟨_, rfl⟩
    have hdate : j.date = ⟨i.date.year, i.date.day, i.date.month⟩ := by
      rw [hj, Instant.date, Instant.midnight]
      refine Date.ofNumber_number ⟨i.isDay_date.day_pos, hle, i.isDay_date.month_pos, ?_⟩
      exact hmonth.trans ((by decide : 12 ≤ 28).trans (le_daysIn _ _))
    have hswap : (Layout.dayFirst.write i).toList = (Layout.monthFirst.write j).toList := by
      rw [htext]
      simp [Layout.toList_write, Layout.monthFirst, Item.write, hdate]
    rw [hswap, readAny?_write_monthFirst (by rw [hdate]; exact hyear), hdate]
  · rw [htext, readAny?_slash (by omega), readDate?_monthFirst_eq_none (by omega) _ (by omega),
      readDate?_yearFirst_eq_none (by omega) ⟨i.isDay_date.month_pos, hmonth⟩ hyear]
    rfl

omit hyear in
theorem readAny?_write_namedMonth : readAny? (Layout.namedMonth.write i).toList = none := by
  rw [Layout.toList_write, Layout.namedMonth, List.flatMap_cons, Item.write]
  exact readAny?_monthNameText i.isDay_date.month_pos i.isDay_date.month_le _

end Reshape.Calendar
