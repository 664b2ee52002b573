/-
# Reshape.Proofs.Proposal.Best -- the search for the best path

A text is wholly similar to itself (`similarity_self`), so when a target is among the paths, the one
that is found best is no less than wholly similar (`exists_best?_of_mem`). That is said with
`¬ score < 1.0`: a score that is not a number is never replaced as the best one, and never below a
threshold either.

For texts of a size that a text can have, scores are numbers (`isNaN_similarity`). Among numbers the
search comes to the first one of the paths that are most alike the target (`best?_eq_some`), and
some path is alike enough exactly when its score reaches the threshold (`hasMatch_iff`).
-/

import Reshape.Proofs.Decimal.Numbers
import Reshape.Proofs.Proposal.EditDistance
import Reshape.Proposal.Basic

namespace Reshape.Text

/-- One character has two in lower case at most. -/
theorem length_lowerChar_le (c : Char) : (lowerChar c).length ≤ 2 := by
  have htable : lowerSpecialTable = [(0x130, [0x69, 0x307])] := by decide
  rw [lowerChar, mapCase, htable]
  split
  case h_1 ts hts =>
    obtain ⟨-, rfl⟩ : c.toNat = 0x130 ∧ ts = [0x69, 0x307] := by
      simp only [List.lookup] at hts
      split at hts
      case h_1 hc => exact ⟨eq_of_beq hc, (Option.some.inj hts).symm⟩
      case h_2 => cases hts
    simp
  case h_2 => simp

theorem length_lowerFrom_le (passed rest : List Char) :
    (lowerFrom passed rest).length ≤ 2 * rest.length := by
  induction rest generalizing passed with
  | nil => simp [lowerFrom]
  | cons c rest ih =>
    have hrest := ih (c :: passed)
    have hchar := length_lowerChar_le c
    simp only [lowerFrom, List.length_append, List.length_cons]
    split
    · split <;> simp only [List.length_cons, List.length_nil] <;> omega
    · omega

theorem length_lower_le (cs : List Char) : (lower cs).length ≤ 2 * cs.length :=
  length_lowerFrom_le [] cs

end Reshape.Text

namespace Reshape.Proposal

/-! ## Similarity -/

theorem similarity_self (t : String) : similarity t t = 1.0 := by
  rw [similarity, Nat.max_self, distance_self]
  split
  case isTrue => rfl
  case isFalse h => exact Decimal.one_sub_zero_div (Nat.pos_of_ne_zero h)

/-- **Scores are numbers** as long as the texts are no longer than texts can be. -/
theorem isNaN_similarity {a b : String} (ha : a.length < 2 ^ 63) (hb : b.length < 2 ^ 63) :
    (similarity a b).isNaN = false := by
  have hxs := Text.length_lower_le a.toList
  have hys := Text.length_lower_le b.toList
  rw [String.length_toList] at hxs hys
  rw [similarity]
  split
  case isTrue => decide
  case isFalse hpos =>
    have hdistance := distance_le_max (Text.lower a.toList) (Text.lower b.toList)
    exact Decimal.isNaN_one_sub_div (by omega) (by omega)

theorem not_one_lt_one : ¬ (1.0 : Float) < 1.0 := by decide

/-! ## The best path -/

variable {target : String}

/-- One more path in the search for the best one. -/
def better (target : String) (best : String × Float) (other : String) : String × Float :=
  if similarity other target > best.2 then (other, similarity other target) else best

theorem best?_cons (target path : String) (paths : List String) :
    best? target (path :: paths) =
      some (paths.foldl (better target) (path, similarity path target)) := rfl

/-- The best score does not fall below one that it has reached. -/
theorem not_better_lt {best : String × Float} {bound : Float} (h : ¬ best.2 < bound)
    (other : String) : ¬ (better target best other).2 < bound := by
  rw [better]
  split
  case isTrue hgt => exact fun hlt => h (Decimal.float_lt_trans hgt hlt)
  case isFalse => exact h

theorem not_foldl_better_lt {best : String × Float} {bound : Float} (h : ¬ best.2 < bound)
    (paths : List String) : ¬ (paths.foldl (better target) best).2 < bound := by
  induction paths generalizing best with
  | nil => exact h
  | cons other paths ih => exact ih (not_better_lt h other)

/-- **The search comes by the target**, after which the best score is no less than one. -/
theorem not_foldl_better_lt_one {paths : List String} (h : target ∈ paths)
    (best : String × Float) : ¬ (paths.foldl (better target) best).2 < 1.0 := by
  obtain ⟨before, after, rfl⟩ := List.append_of_mem h
  rw [List.foldl_append, List.foldl_cons]
  refine not_foldl_better_lt ?_ after
  rw [better, similarity_self]
  split
  case isTrue =>
    exact not_one_lt_one
  case isFalse hgt => exact hgt

/-- **A path that is there is found**, or one that is no less similar than it. -/
theorem exists_best?_of_mem {paths : List String} (h : target ∈ paths) :
    ∃ path score, best? target paths = some (path, score) ∧ ¬ score < 1.0 := by
  cases paths with
  | nil => cases h
  | cons path paths =>
    refine ⟨_, _, best?_cons target path paths, ?_⟩
    rcases List.mem_cons.mp h with rfl | h
    · refine not_foldl_better_lt ?_ paths
      rw [similarity_self]
      exact not_one_lt_one
    · exact not_foldl_better_lt_one h _

/-! ## The first of the best -/

/-- **The first of the paths that are most alike a target**: no path is more alike, and those before
it are less alike. -/
def FirstBest (target : String) (paths : List String) (path : String) : Prop :=
  ∃ before after, paths = before ++ path :: after ∧
    (∀ other ∈ paths, similarity other target ≤ similarity path target) ∧
      ∀ other ∈ before, similarity other target < similarity path target

/-- The similarities of all paths to a target are numbers. -/
def Scored (target : String) (paths : List String) : Prop :=
  ∀ path ∈ paths, (similarity path target).isNaN = false

variable {paths seen : List String} {path other : String} {best : String × Float}

theorem FirstBest.mem (h : FirstBest target paths path) : path ∈ paths := by
  obtain ⟨before, after, rfl, -, -⟩ := h
  exact List.mem_append_right before List.mem_cons_self

theorem firstBest_singleton (h : (similarity path target).isNaN = false) :
    FirstBest target [path] path := by
  refine ⟨[], [], rfl, ?_, fun _ hmem => absurd hmem List.not_mem_nil⟩
  intro other hmem
  rw [List.mem_singleton.mp hmem]
  exact Decimal.float_le_refl h

/-- A path that is more alike than the best one so far is the first best with it. -/
theorem FirstBest.concat_of_lt (h : FirstBest target seen path)
    (hlt : similarity path target < similarity other target)
    (hother : (similarity other target).isNaN = false) :
    FirstBest target (seen ++ [other]) other := by
  obtain ⟨-, -, -, hbound, -⟩ := h
  have hseen : ∀ p ∈ seen, similarity p target < similarity other target :=
    fun p hp => Decimal.float_lt_of_le_of_lt (hbound p hp) hlt
  refine ⟨seen, [], rfl, ?_, hseen⟩
  intro p hp
  rcases List.mem_append.mp hp with hp | hp
  · exact Decimal.float_le_of_lt (hseen p hp)
  · rw [List.mem_singleton.mp hp]
    exact Decimal.float_le_refl hother

/-- A path that is no more alike changes nothing. -/
theorem FirstBest.concat_of_le (h : FirstBest target seen path)
    (hle : similarity other target ≤ similarity path target) :
    FirstBest target (seen ++ [other]) path := by
  obtain ⟨before, after, rfl, hbound, hbefore⟩ := h
  refine ⟨before, after ++ [other], by simp, ?_, hbefore⟩
  intro p hp
  rcases List.mem_append.mp hp with hp | hp
  · exact hbound p hp
  · rwa [List.mem_singleton.mp hp]

/-- **One more path**: what was the first best of the paths seen is so with the next one. -/
theorem FirstBest.better (h : FirstBest target seen path) (hseen : Scored target seen)
    (hother : (similarity other target).isNaN = false) :
    ∃ next, better target (path, similarity path target) other =
        (next, similarity next target) ∧ FirstBest target (seen ++ [other]) next := by
  have hpath := hseen path h.mem
  unfold Proposal.better
  by_cases hlt : similarity path target < similarity other target
  · exact ⟨other, if_pos hlt, h.concat_of_lt hlt hother⟩
  · exact ⟨path, if_neg hlt, h.concat_of_le ((Decimal.float_not_lt_iff hpath hother).mp hlt)⟩

/-- **The search** keeps the first best of the paths that it has seen. -/
theorem FirstBest.foldl_better (h : FirstBest target seen path)
    (hscored : Scored target (seen ++ paths)) :
    ∃ found, paths.foldl (Proposal.better target) (path, similarity path target) =
        (found, similarity found target) ∧ FirstBest target (seen ++ paths) found := by
  induction paths generalizing seen path with
  | nil => exact ⟨path, rfl, by rwa [List.append_nil]⟩
  | cons other paths ih =>
    have hseen : Scored target seen := fun p hp => hscored p (List.mem_append_left _ hp)
    have hother : (similarity other target).isNaN = false :=
      hscored other (List.mem_append_right seen List.mem_cons_self)
    obtain ⟨next, heq, hnext⟩ := h.better hseen hother
    rw [List.append_cons] at hscored
    obtain ⟨found, hfold, hfound⟩ := ih hnext hscored
    refine ⟨found, ?_, ?_⟩
    · rw [List.foldl_cons, heq, hfold]
    · rwa [List.append_cons]

/-- **The path that is found best is the first of the best**, and it is found with its score. -/
theorem exists_best?_eq_some (hne : paths ≠ []) (hscored : Scored target paths) :
    ∃ path, best? target paths = some (path, similarity path target) ∧
      FirstBest target paths path := by
  obtain ⟨first, rest, rfl⟩ := List.exists_cons_of_ne_nil hne
  have hfirst := firstBest_singleton (hscored first List.mem_cons_self)
  obtain ⟨found, hfold, hfound⟩ := hfirst.foldl_better hscored
  exact ⟨found, by rw [best?_cons, hfold], hfound⟩

/-! ## Paths that are alike enough -/

/-- **Some path is alike enough** to a target. -/
def HasMatch (paths : List String) (threshold : Float) (target : String) : Prop :=
  ∃ path score, best? target paths = some (path, score) ∧ ¬ score < threshold

/-- A path that is there is alike enough for every threshold that can be reached. -/
theorem hasMatch_of_mem {paths : List String} {threshold : Float} (h : target ∈ paths)
    (hthreshold : threshold ≤ 1.0) : HasMatch paths threshold target := by
  obtain ⟨path, score, hbest, hscore⟩ := exists_best?_of_mem h
  refine ⟨path, score, hbest, fun hlt => ?_⟩
  exact hscore (Decimal.float_lt_of_lt_of_le hlt hthreshold)

/-- **Some path is alike enough** exactly when its score reaches the threshold. -/
theorem hasMatch_iff {threshold : Float} (hscored : Scored target paths)
    (hthreshold : threshold.isNaN = false) :
    HasMatch paths threshold target ↔ ∃ path ∈ paths, threshold ≤ similarity path target := by
  constructor
  · rintro ⟨path, score, hbest, hscore⟩
    have hne : paths ≠ [] := by
      rintro rfl
      cases hbest
    obtain ⟨found, hfound, hfirst⟩ := exists_best?_eq_some hne hscored
    cases hbest.symm.trans hfound
    have hle := (Decimal.float_not_lt_iff (hscored path hfirst.mem) hthreshold).mp hscore
    exact ⟨path, hfirst.mem, hle⟩
  · rintro ⟨path, hpath, hle⟩
    obtain ⟨found, hbest, hfirst⟩ := exists_best?_eq_some (List.ne_nil_of_mem hpath) hscored
    obtain ⟨-, -, -, hbound, -⟩ := id hfirst
    refine ⟨found, _, hbest, ?_⟩
    rw [Decimal.float_not_lt_iff (hscored found hfirst.mem) hthreshold]
    exact Decimal.float_le_trans hle (hbound path hpath)

end Reshape.Proposal
