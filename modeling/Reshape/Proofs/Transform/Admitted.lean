/-
# Reshape.Proofs.Transform.Admitted -- what an admitted transformation can fail on

A transformation is admitted when nothing is objected to it. The check looks at the settings alone,
application looks at the settings and at a value; `tryApply_of_admitted` says that what is left to
fail after the check is the value: a calculation without a finite result, something that is no date
or that is moved out of the calendar, text that is no JSON, a formula without a value.

`FailsOn` lists these failures, each with the reason for it. No class of faults that speaks of
settings is among them.

The check reads a pattern without its flags. That application can read it with them, too, is not a
fact about every pattern: letters in either case take more room, and a pattern at the limit of
`Pattern.maxSize` is accepted without the flag and refused with it. So it is an assumption here,
about the one pattern at hand (`Pattern.FlagBlind`).
-/

import Reshape.Proofs.Decimal.Finite
import Reshape.Transform.Check

namespace Reshape

/-- **Whether a text is a pattern does not depend on the flags** for case, lines and dots. -/
def Pattern.FlagBlind (text : String) : Prop :=
  ∀ ignoreCase multiLine dotAll : Bool,
    (Pattern.ofText { ignoreCase, multiLine, dotAll } text).isOk = (Pattern.ofText {} text).isOk

theorem Json.ofFloat?_eq_none_iff (x : Float) : Json.ofFloat? x = none ↔ x.isFinite = false := by
  rw [← Decimal.parts?_eq_none_iff, Json.ofFloat?]
  cases Decimal.parts? x with
  | none => simp
  | some p =>
    dsimp only
    split <;> simp

namespace Transform

/-! ## Failures that are due to the value -/

/-- **How an admitted transformation fails on a value.** -/
inductive FailsOn : Transform → Json → Fault → Prop
  | notFinite {s : Calculate} {v : Json} {x : Float} (hx : v.toFloat? = some x)
      (h : (s.operation.of x s.value).isFinite = false) :
      FailsOn (.calculate s) v (.notFinite s.operation x s.value)
  | noDateToFormat {s : DateFormat} {v : Json} (h : instantOf? s.hint v = none) :
      FailsOn (.dateFormat s) v (.noDate "date_format" v)
  | noDateToMove {s : DateAdd} {v : Json} (h : instantOf? none v = none) :
      FailsOn (.dateAdd s) v (.noDate "date_add" v)
  | beyondCalendar {s : DateAdd} {v : Json} {i : Calendar.Instant}
      (hi : instantOf? none v = some i) (h : s.move? i = none) :
      FailsOn (.dateAdd s) v (.beyondCalendar s.amount s.unit)
  | unreadable {text : String} {flaw : Wire.Flaw} (h : Wire.Text.parse text = .error flaw) :
      FailsOn .parseJson (.str text) (.unreadable text)
  | noValue {expression : String} {v : Json} {term : Formula.Term} {e : Formula.EvalError}
      (hterm : Formula.Term.ofText expression = .ok term) (h : term.eval (.ofJson v) = .error e) :
      FailsOn (.custom expression) v (.noValue e)

/-- A failure on a value says nothing about settings. -/
theorem FailsOn.code {t : Transform} {v : Json} {f : Fault} (h : FailsOn t v f) :
    f.code = .transformFailed ∨ f.code = .expressionEvalError := by
  cases h with
  | noValue _ _ => exact .inr rfl
  | _ => exact .inl rfl

/-- **A transformation has a result for a value, or fails on it.** -/
def Settles (t : Transform) (v : Json) : Prop :=
  (∃ w, t.tryApply v = .ok w) ∨ ∃ f, t.tryApply v = .error f ∧ FailsOn t v f

/-! ## One kind at a time -/

theorem settles_calculate (s : Calculate) (v : Json) : Settles (.calculate s) v := by
  unfold Settles
  simp only [tryApply, Calculate.of]
  cases hx : v.toFloat? with
  | none => exact .inl ⟨v, rfl⟩
  | some x =>
    cases hr : Json.ofFloat? (s.operation.of x s.value) with
    | some result => exact .inl ⟨result, by simp only [hr]⟩
    | none =>
      refine .inr ⟨_, by simp only [hr], .notFinite hx ?_⟩
      exact (Json.ofFloat?_eq_none_iff _).mp hr

theorem settles_dateFormat (s : DateFormat) (v : Json) : Settles (.dateFormat s) v := by
  unfold Settles
  simp only [tryApply, DateFormat.of]
  cases hi : instantOf? s.hint v with
  | none => exact .inr ⟨_, rfl, .noDateToFormat hi⟩
  | some i => exact .inl ⟨_, rfl⟩

theorem settles_dateAdd (s : DateAdd) (v : Json) : Settles (.dateAdd s) v := by
  unfold Settles
  simp only [tryApply, DateAdd.of]
  cases hi : instantOf? none v with
  | none => exact .inr ⟨_, rfl, .noDateToMove hi⟩
  | some i =>
    cases hm : s.move? i with
    | none => exact .inr ⟨_, by simp only [hm], .beyondCalendar hi hm⟩
    | some j => exact .inl ⟨.str (Calendar.isoText j), by simp only [hm]⟩

theorem settles_parseJson (v : Json) : Settles .parseJson v := by
  cases v with
  | str text =>
    cases hp : Wire.Text.parse text with
    | ok w => exact .inl ⟨w, by simp only [tryApply, parsed, hp]; rfl⟩
    | error flaw => exact .inr ⟨_, by simp only [tryApply, parsed, hp]; rfl, .unreadable hp⟩
  | _ => exact .inl ⟨_, rfl⟩

/-- The table that was checked is the one that is used. -/
theorem settles_lookup {s : Lookup} (h : (Transform.lookup s).objections = []) (v : Json) :
    Settles (.lookup s) v := by
  simp only [objections] at h
  cases he : s.entries with
  | ok ms => exact .inl ⟨_, by simp only [tryApply, Lookup.of, he]; rfl⟩
  | error flaw => simp [he] at h

/-- The formula that was checked is the one that is evaluated. -/
theorem settles_custom {expression : String} (h : (Transform.custom expression).objections = [])
    (v : Json) : Settles (.custom expression) v := by
  simp only [objections] at h
  split at h
  · cases h
  · cases ht : Formula.Term.ofText expression with
    | error e => simp [ht] at h
    | ok term =>
      cases hv : term.eval (.ofJson v) with
      | ok value => exact .inl ⟨_, by simp only [tryApply, evaluate, ht, hv]; rfl⟩
      | error e => exact .inr ⟨_, by simp only [tryApply, evaluate, ht, hv], .noValue ht hv⟩

/-- What is looked for was checked without flags. -/
theorem isOk_of_findObjections {s : Replace} (h : s.findObjections = []) (hregex : s.regex = true) :
    (Pattern.ofText {} s.find).isOk = true := by
  unfold Replace.findObjections at h
  by_cases hempty : s.find.isEmpty = true
  · rw [if_pos hempty] at h
    cases h
  · rw [if_neg hempty, if_pos hregex] at h
    cases hp : Pattern.ofText {} s.find with
    | ok p => rfl
    | error fault =>
      rw [hp] at h
      cases h

theorem settles_replace {s : Replace} (h : (Transform.replace s).objections = [])
    (hflags : s.regex = true → Pattern.FlagBlind s.find) (v : Json) : Settles (.replace s) v := by
  refine .inl ?_
  simp only [tryApply, Replace.of]
  split
  · exact ⟨v, rfl⟩
  · split
    · exact ⟨v, rfl⟩
    · split
      · exact ⟨_, rfl⟩
      · next hregex =>
        have hregex : s.regex = true := by simpa using hregex
        have hfind := (List.append_eq_nil_iff.mp h).1
        have hok : (Pattern.ofText s.modes s.find).isOk = true :=
          (hflags hregex _ _ _).trans (isOk_of_findObjections hfind hregex)
        cases hp : Pattern.ofText s.modes s.find with
        | ok p => exact ⟨_, rfl⟩
        | error fault =>
          rw [hp] at hok
          cases hok

/-! ## All kinds -/

/-- **An admitted transformation fails on account of a value only.** When nothing is objected to a
transformation, it has a result for every value, or it fails in one of the ways that `FailsOn`
lists; and then the class of the fault is none of those that speak of settings. -/
theorem tryApply_of_admitted {t : Transform} (ht : t.objections = [])
    (hflags : ∀ s, t = .replace s → s.regex = true → Pattern.FlagBlind s.find) (v : Json) :
    (∃ w, t.tryApply v = .ok w) ∨
      ∃ f, t.tryApply v = .error f ∧ FailsOn t v f ∧ f.code ≠ .invalidTransformConfig ∧
        f.code ≠ .unknownTransformType ∧ f.code ≠ .expressionParseError := by
  have hsettles : Settles t v := by
    cases t with
    | calculate s => exact settles_calculate s v
    | dateFormat s => exact settles_dateFormat s v
    | dateAdd s => exact settles_dateAdd s v
    | parseJson => exact settles_parseJson v
    | lookup s => exact settles_lookup ht v
    | custom expression => exact settles_custom ht v
    | replace s => exact settles_replace ht (hflags s rfl) v
    | undecoded kind config cause => cases ht
    | _ => exact .inl ⟨_, rfl⟩
  rcases hsettles with hok | ⟨f, hf, hfails⟩
  · exact .inl hok
  · refine .inr ⟨f, hf, hfails, ?_⟩
    rcases hfails.code with hcode | hcode <;> rw [hcode] <;> decide

/-- The last character of every line. -/
def lastOfLine : Replace :=
  { find := ".$", replaceWith := "!", regex := true, flags := some "gm" }

/-- The dot and the end of a line mean different things under different flags, and are read under
all of them. -/
theorem tryApply_of_admitted_lastOfLine :
    (Transform.replace lastOfLine).objections = [] ∧ Pattern.FlagBlind lastOfLine.find ∧
      ∃ w, (Transform.replace lastOfLine).tryApply (.str "plum\npear") = .ok w := by
  have hclean : (Transform.replace lastOfLine).objections = [] := rfl
  have hblind : Pattern.FlagBlind lastOfLine.find := by
    intro ignoreCase multiLine dotAll
    cases ignoreCase <;> cases multiLine <;> cases dotAll <;> rfl
  have hflags : ∀ s, Transform.replace lastOfLine = .replace s → s.regex = true →
      Pattern.FlagBlind s.find := by
    rintro s ⟨⟩ -
    exact hblind
  refine ⟨hclean, hblind, ?_⟩
  rcases tryApply_of_admitted hclean hflags (.str "plum\npear") with hw | ⟨f, -, hfails, -⟩
  · exact hw
  · cases hfails

end Transform

end Reshape
