/-
# Reshape.Proofs.Transform.Groups -- digits in groups of three

A separator goes where a position is a multiple of three digits away from the end, and not to the
front. What stands between separators are the groups that are cut off from the right: all of them
have three digits but the first one, which has what is left (`Grouped`). Digits can be cut in one
way only (`existsUnique_grouped`), and joining the groups by the separator is what `groupDigits`
does in one pass from the left (`groupDigits_flatten`).

In the text of a number only the whole part is grouped. Without its separators it is the whole part
of the decimal with fixed places, whatever the separator is (`groupDigits_and_format_eq_join`).
-/

import Reshape.Proofs.Decimal.Finite
import Reshape.Proofs.Decimal.Natural
import Reshape.Proofs.Text.Pieces
import Reshape.Transform.Number

namespace Reshape.Transform

variable {separator g : List Char} {groups rest : List (List Char)} {n k : Nat}

/-! ## Groups -/

/-- **Groups of three**, counted from the right: the first one has one to three digits, all others
have three. -/
def Grouped : List (List Char) → Prop
  | [] => True
  | first :: rest => 0 < first.length ∧ first.length ≤ 3 ∧ ∀ g ∈ rest, g.length = 3

theorem Grouped.length_flatten {first : List Char} (h : Grouped (first :: rest)) :
    (first :: rest).flatten.length = first.length + 3 * rest.length := by
  rw [List.flatten_cons, List.length_append, List.length_flatten, List.map_congr_left h.2.2,
    List.map_const', List.sum_replicate_nat, Nat.mul_comm]

/-- Three more digits at the end are one more group. -/
theorem Grouped.concat (h : Grouped groups) (hg : g.length = 3) : Grouped (groups ++ [g]) := by
  cases groups with
  | nil => exact ⟨by omega, by omega, fun x hx => absurd hx List.not_mem_nil⟩
  | cons first rest =>
    refine ⟨h.1, h.2.1, fun x hx => ?_⟩
    rcases List.mem_append.mp hx with hx | hx
    · exact h.2.2 x hx
    · exact List.mem_singleton.mp hx ▸ hg

theorem exists_grouped (digits : List Char) : ∃ groups, Grouped groups ∧ groups.flatten = digits := by
  induction hn : digits.length using Nat.strong_induction_on generalizing digits with
  | _ n ih =>
    rcases Nat.lt_or_ge 3 digits.length with hlong | hshort
    · -- the last three digits are a group of their own
      obtain ⟨groups, hgroups, hflatten⟩ := ih (digits.length - 3) (by omega)
        (digits.take (digits.length - 3)) (by rw [List.length_take]; omega)
      refine ⟨groups ++ [digits.drop (digits.length - 3)],
        hgroups.concat (by rw [List.length_drop]; omega), ?_⟩
      rw [List.flatten_append, hflatten, List.flatten_singleton, List.take_append_drop]
    · cases digits with
      | nil => exact ⟨[], trivial, rfl⟩
      | cons d ds =>
        exact ⟨[d :: ds], ⟨Nat.succ_pos _, hshort, fun x hx => absurd hx List.not_mem_nil⟩,
          List.flatten_singleton⟩

/-- The sizes of the groups are determined by the number of digits. -/
theorem Grouped.map_length_eq {groups' : List (List Char)} (h : Grouped groups)
    (h' : Grouped groups') (hlength : groups.flatten.length = groups'.flatten.length) :
    groups.map List.length = groups'.map List.length := by
  cases groups with
  | nil =>
    cases groups' with
    | nil => rfl
    | cons first rest =>
      have hpos := h'.1
      rw [h'.length_flatten, List.flatten_nil, List.length_nil] at hlength
      omega
  | cons first rest =>
    have hpos := h.1
    have hle := h.2.1
    cases groups' with
    | nil =>
      rw [h.length_flatten, List.flatten_nil, List.length_nil] at hlength
      omega
    | cons first' rest' =>
      have hpos' := h'.1
      have hle' := h'.2.1
      rw [h.length_flatten, h'.length_flatten] at hlength
      have hfirst : first.length = first'.length := by omega
      have hrest : rest.length = rest'.length := by omega
      rw [List.map_cons, List.map_cons, List.map_congr_left h.2.2, List.map_congr_left h'.2.2,
        List.map_const', List.map_const', hfirst, hrest]

theorem existsUnique_grouped (digits : List Char) :
    ∃! groups, Grouped groups ∧ groups.flatten = digits := by
  obtain ⟨groups, hgroups, hflatten⟩ := exists_grouped digits
  refine ⟨groups, ⟨hgroups, hflatten⟩, fun groups' ⟨hgroups', hflatten'⟩ => ?_⟩
  have hsame : groups'.flatten = groups.flatten := hflatten'.trans hflatten.symm
  exact List.eq_iff_flatten_eq.mpr
    ⟨hsame, Grouped.map_length_eq hgroups' hgroups (congrArg List.length hsame)⟩

/-! ## Separators -/

theorem opensGroup_iff : opensGroup n k = true ↔ k ≠ 0 ∧ (k + 3 - n % 3) % 3 = 0 := by
  simp [opensGroup]

theorem opensGroup_eq_false_iff : opensGroup n k = false ↔ k = 0 ∨ (k + 3 - n % 3) % 3 ≠ 0 := by
  rw [← Bool.not_eq_true, opensGroup_iff, not_and_or, not_not]

/-- Digits among which no group begins stay as they are. -/
theorem flatMap_placed_of_closed (h : ∀ i, k ≤ i → i < k + g.length → opensGroup n i = false) :
    (g.zipIdx k).flatMap (placed separator n) = g := by
  induction g generalizing k with
  | nil => rfl
  | cons d ds ih =>
    rw [List.length_cons] at h
    have hd : opensGroup n k = false := h k (Nat.le_refl k) (by omega)
    have hds := ih (k := k + 1) fun i hle hlt => h i (by omega) (by omega)
    rw [List.zipIdx_cons, List.flatMap_cons, hds, placed, if_neg (ne_true_of_eq_false hd)]
    rfl

/-- **A group that begins at a position** gets a separator, and none within. -/
theorem flatMap_placed_group (hk : opensGroup n k = true) (hg : g.length = 3) :
    (g.zipIdx k).flatMap (placed separator n) = separator ++ g := by
  obtain ⟨d, ds, rfl⟩ := List.exists_cons_of_length_eq_add_one hg
  have hmod := (opensGroup_iff.mp hk).2
  have hds : (ds.zipIdx (k + 1)).flatMap (placed separator n) = ds := by
    refine flatMap_placed_of_closed fun i hle hlt => opensGroup_eq_false_iff.mpr (.inr ?_)
    rw [List.length_cons] at hg
    omega
  rw [List.zipIdx_cons, List.flatMap_cons, hds, placed, if_pos hk, List.append_assoc]
  rfl

/-- Behind the first group each one gets a separator. -/
theorem flatMap_placed_groups (hk : opensGroup n k = true) (h : ∀ g ∈ rest, g.length = 3) :
    (rest.flatten.zipIdx k).flatMap (placed separator n) =
      (rest.map (separator ++ ·)).flatten := by
  induction rest generalizing k with
  | nil => rfl
  | cons g gs ih =>
    obtain ⟨hg, hgs⟩ := List.forall_mem_cons.mp h
    have hnext : opensGroup n (k + g.length) = true := by
      rw [opensGroup_iff] at hk ⊢
      omega
    rw [List.flatten_cons, List.zipIdx_append, List.flatMap_append, flatMap_placed_group hk hg,
      ih hnext hgs, List.map_cons, List.flatten_cons]

/-- **Digits get a separator between each two of their groups.** -/
theorem groupDigits_flatten (separator : List Char) (h : Grouped groups) :
    groupDigits separator groups.flatten = Text.join separator groups := by
  rw [groupDigits]
  split
  case isTrue hshort =>
    rcases Bool.or_eq_true_iff.mp hshort with hempty | hlength
    · rw [List.isEmpty_iff.mp hempty, Text.join_nil]
    · -- there is room for one group only
      cases groups with
      | nil => rfl
      | cons first rest =>
        have hpos := h.1
        rw [decide_eq_true_eq, h.length_flatten] at hlength
        obtain rfl : rest = [] := List.eq_nil_of_length_eq_zero (by omega)
        exact List.flatten_singleton
  case isFalse =>
    cases groups with
    | nil => rfl
    | cons first rest =>
      have hpos := h.1
      have hle := h.2.1
      have hopens : opensGroup (first.length + 3 * rest.length) (0 + first.length) = true :=
        opensGroup_iff.mpr (by omega)
      have hclosed : ∀ i, 0 ≤ i → i < 0 + first.length →
          opensGroup (first.length + 3 * rest.length) i = false :=
        fun i _ hlt => opensGroup_eq_false_iff.mpr (by omega)
      rw [h.length_flatten, List.flatten_cons, List.zipIdx_append, List.flatMap_append,
        flatMap_placed_of_closed hclosed, flatMap_placed_groups hopens h.2.2, Text.join_cons]

example : groupDigits [','] "1234567".toList = "1,234,567".toList := by decide

/-! ## The whole part of a number -/

theorem isDigit_of_mem_fixedDigits {p : Decimal.Parts} {places d : Nat}
    (h : d ∈ (Decimal.fixedDigits p places).1) : (Decimal.digitChar d).isDigit = true := by
  rcases List.mem_append.mp (List.mem_of_mem_take h) with hd | hd
  · rw [List.eq_of_mem_replicate hd]
    rfl
  · obtain ⟨c, hc, rfl⟩ := List.mem_map.mp hd
    have hdigit := Decimal.isDigit_of_mem_toDigits hc
    change (Decimal.digitChar (Decimal.digitValue c)).isDigit = true
    rwa [Decimal.digitChar_digitValue hdigit]

/-- **A finite number with fixed places** is written as a sign, digits, and perhaps a point with more
behind it. -/
theorem exists_toList_fixedText {x : Float} (hx : x.isFinite = true) (places : Nat) :
    ∃ sign whole rest, (Decimal.fixedText places x).toList = sign ++ (whole ++ rest) ∧
      (sign = [] ∨ sign = ['-']) ∧ (∀ c ∈ whole, c.isDigit = true) ∧
      (rest = [] ∨ rest.head? = some '.') := by
  obtain ⟨p, hp⟩ := Option.ne_none_iff_exists'.mp
    (mt (Decimal.parts?_eq_none_iff x).mp (by simp [hx]))
  have htext : Decimal.fixedText places x =
      Decimal.minus p.negative ++ Decimal.digitText (Decimal.fixedDigits p places).1 ++
        (if places = 0 then "" else "." ++ Decimal.digitText (Decimal.fixedDigits p places).2) := by
    rw [Decimal.fixedText, hp]
  rw [htext, String.toList_append, String.toList_append, List.append_assoc]
  refine ⟨_, _, _, rfl, ?_, ?_, ?_⟩
  · cases p.negative
    · exact .inl rfl
    · exact .inr rfl
  · intro c hc
    rw [Decimal.digitText, String.toList_ofList] at hc
    obtain ⟨d, hd, rfl⟩ := List.mem_map.mp hc
    exact isDigit_of_mem_fixedDigits hd
  · split
    · exact .inl rfl
    · rw [String.toList_append]
      exact .inr rfl

/-- **A decimal in parts**: an optional minus, the whole part, which ends at the point, and the rest
from the point on. -/
def InParts (text sign whole rest : List Char) : Prop :=
  text = sign ++ whole ++ rest ∧ (sign = [] ∨ sign = ['-']) ∧ '.' ∉ whole ∧
    (rest = [] ∨ rest.head? = some '.')

theorem span_point (cs : List Char) :
    (cs.span (· ≠ '.')).1 ++ (cs.span (· ≠ '.')).2 = cs ∧ '.' ∉ (cs.span (· ≠ '.')).1 ∧
      ((cs.span (· ≠ '.')).2 = [] ∨ (cs.span (· ≠ '.')).2.head? = some '.') := by
  rw [List.span_eq_takeWhile_dropWhile]
  refine ⟨List.takeWhile_append_dropWhile, fun hdot => ?_, ?_⟩
  · exact absurd (List.mem_takeWhile_imp hdot) (by decide)
  · have hfirst := List.head?_dropWhile_not (fun c : Char => decide (c ≠ '.')) cs
    cases hrest : cs.dropWhile (· ≠ '.') with
    | nil => exact .inl rfl
    | cons c rest =>
      rw [hrest] at hfirst
      exact .inr (by simpa using hfirst)

theorem inParts_decimalParts (text : List Char) :
    InParts text (decimalParts text).1 (decimalParts text).2.1 (decimalParts text).2.2 := by
  rw [decimalParts]
  split
  case h_1 magnitude heq =>
    obtain ⟨hparts, hrest⟩ := span_point magnitude
    refine ⟨?_, .inr rfl, hrest⟩
    rw [List.append_assoc, hparts]
    exact Text.dropStart?_eq_some_iff.mp heq
  case h_2 =>
    obtain ⟨hparts, hrest⟩ := span_point text
    exact ⟨hparts.symm, .inl rfl, hrest⟩

/-- Digits up to a point are the whole part. -/
theorem decimalParts_eq {sign whole rest : List Char} (hsign : sign = [] ∨ sign = ['-'])
    (hwhole : ∀ c ∈ whole, c.isDigit = true) (hrest : rest = [] ∨ rest.head? = some '.') :
    decimalParts (sign ++ (whole ++ rest)) = (sign, whole, rest) := by
  have hspan : (whole ++ rest).span (· ≠ '.') = (whole, rest) := by
    have hall : ∀ c ∈ whole, decide (c ≠ '.') = true := by
      intro c hc
      refine decide_eq_true ?_
      rintro rfl
      cases hwhole '.' hc
    rw [List.span_eq_takeWhile_dropWhile, List.takeWhile_append_of_pos hall,
      List.dropWhile_append_of_pos hall]
    rcases hrest with rfl | hrest
    · rw [List.takeWhile_nil, List.append_nil, List.dropWhile_nil]
    · obtain ⟨ds, rfl⟩ := List.head?_eq_some_iff.mp hrest
      simp
  rcases hsign with rfl | rfl
  · -- neither a digit nor a point is a minus
    have hminus : Text.dropStart? ['-'] (whole ++ rest) = none := by
      refine Option.eq_none_iff_forall_ne_some.mpr fun cs hcs => ?_
      have hhead := congrArg List.head? (Text.dropStart?_eq_some_iff.mp hcs)
      cases whole with
      | nil =>
        rcases hrest with rfl | hrest
        · cases hhead
        · rw [List.nil_append, hrest] at hhead
          cases hhead
      | cons c whole =>
        cases hhead
        cases hwhole '-' List.mem_cons_self
    rw [decimalParts, List.nil_append, hminus, hspan]
  · rw [decimalParts, Text.dropStart?_append]
    dsimp only
    rw [hspan]

/-- **The whole part of a finite number** with fixed places are digits. -/
theorem isDigit_of_mem_whole {x : Float} (hx : x.isFinite = true) (places : Nat) :
    ∀ c ∈ (decimalParts (Decimal.fixedText places x).toList).2.1, c.isDigit = true := by
  obtain ⟨sign, whole, rest, htext, hsign, hwhole, hrest⟩ := exists_toList_fixedText hx places
  rw [htext, decimalParts_eq hsign hwhole hrest]
  exact hwhole

/-- **Digits are joined by the separator in groups of three**, which are determined by the digits.
In the text of a number these are the digits of the whole part, and all else stands as it does
without separators. -/
theorem groupDigits_and_format_eq_join (separator digits : List Char) (format : NumberFormat)
    (value : Json) :
    (∃! groups, Grouped groups ∧ groups.flatten = digits) ∧
    (∀ groups, Grouped groups → groups.flatten = digits →
      groupDigits separator digits = Text.join separator groups) ∧
    groupDigits [] digits = digits ∧
    ∀ x, value.toFloat? = some x → ∃ sign groups rest,
      InParts (Decimal.fixedText (min format.decimals maxDecimals) x).toList sign groups.flatten
        rest ∧
      Grouped groups ∧
      (x.isFinite = true → ∀ c ∈ groups.flatten, c.isDigit = true) ∧
      format.of value = .str (format.front.getD "" ++
        String.ofList (sign ++ Text.join (format.thousandSeparator.getD ",").toList groups ++ rest)
          ++ format.back.getD "") := by
  refine ⟨existsUnique_grouped digits, ?_, rfl, fun x hx => ?_⟩
  · rintro groups hgroups rfl
    exact groupDigits_flatten separator hgroups
  · let text := (Decimal.fixedText (min format.decimals maxDecimals) x).toList
    obtain ⟨groups, hgroups, hflatten⟩ := exists_grouped (decimalParts text).2.1
    refine ⟨(decimalParts text).1, groups, (decimalParts text).2.2, ?_, hgroups, ?_, ?_⟩
    · rw [hflatten]
      exact inParts_decimalParts text
    · rw [hflatten]
      exact fun hfinite => isDigit_of_mem_whole hfinite _
    · rw [← groupDigits_flatten _ hgroups, hflatten, NumberFormat.of, hx]
      rfl

end Reshape.Transform
