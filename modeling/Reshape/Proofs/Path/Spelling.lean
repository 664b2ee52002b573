/-
# Reshape.Proofs.Path.Spelling -- how segments are spelled

A segment that can be read is a key with suffixes behind it, and each suffix is some text between
two brackets (`parseSegment_eq_ok_iff`). The text of a position is not fixed by the position: `[2]`,
`[02]` and `[+2]` are read alike. So what is said of a path that can be read is said by induction on
`Spells`, which keeps the texts, and not on the segments.

`concrete` puts positions in the place of the wildcards of a path. It goes over the text from left
to right and touches nothing but wildcards (`Spells.concrete_append`), and a segment is then read
with positions where it had wildcards (`Spells.concrete`).
-/

import Reshape.Proofs.Path.First

namespace Reshape.Path

/-- A list that was read item by item: its first item was read, and then the others. -/
theorem exists_of_cons_eq_ok {ε α : Type} {x : Except ε α} {y : Except ε (List α)} {us : List α}
    (h : (do let s ← x; let ss ← y; return s :: ss) = Except.ok us) :
    ∃ s ss, x = .ok s ∧ y = .ok ss ∧ us = s :: ss := by
  cases x with
  | error e => cases h
  | ok s =>
    cases y with
    | error e => cases h
    | ok ss =>
      cases h
      exact ⟨s, ss, rfl, rfl, rfl⟩

/-! ## Texts of suffixes -/

/-- **A text spells suffixes**: each one is read off what stands between two brackets. -/
inductive Spells : List Char → List Suffix → Prop
  | nil : Spells [] []
  | cons {inner cs : List Char} {s : Suffix} {ss : List Suffix} (hs : Suffix.ofInner inner = .ok s)
      (rest : Spells cs ss) : Spells ('[' :: inner ++ ']' :: cs) (s :: ss)

/-- Between brackets there is a star, or a number. -/
theorem ofInner_eq_ok_iff {inner : List Char} {s : Suffix} :
    Suffix.ofInner inner = .ok s ↔
      inner = ['*'] ∧ s = .every ∨ ∃ n, Decimal.unsigned? inner = some n ∧ s = .at n := by
  rw [Suffix.ofInner]
  split
  case isTrue h =>
    subst h
    have hstar : Decimal.unsigned? ['*'] = none := rfl
    simp [hstar, eq_comm]
  case isFalse h =>
    cases hn : Decimal.unsigned? inner <;> simp [h, eq_comm]

theorem not_mem_of_ofInner {inner : List Char} {s : Suffix} (h : Suffix.ofInner inner = .ok s)
    {c : Char} (hstar : c ≠ '*') (hplus : c ≠ '+') (hdigit : Decimal.isDigit c = false) :
    c ∉ inner := by
  intro hc
  rcases ofInner_eq_ok_iff.mp h with ⟨rfl, -⟩ | ⟨n, hn, -⟩
  · exact hstar (List.mem_singleton.mp hc)
  · rw [Json.unsigned?_eq_none_of_mem hc hplus hdigit] at hn
    cases hn

/-- What stands between two brackets is read, and reading goes on behind them. -/
theorem suffixes_bracket {inner : List Char} (h : ']' ∉ inner) (cs : List Char) :
    suffixes none ('[' :: inner ++ ']' :: cs) = do
      let s ← Suffix.ofInner inner
      let ss ← suffixes none cs
      return s :: ss := by
  rw [List.cons_append, suffixes, if_pos rfl, suffixes_some_append h, List.append_nil, suffixes,
    if_pos rfl, List.reverse_reverse]

theorem Spells.suffixes {cs : List Char} {ss : List Suffix} (h : Spells cs ss) :
    suffixes none cs = .ok ss := by
  induction h with
  | nil => rfl
  | cons hs _ ih =>
    rw [suffixes_bracket (not_mem_of_ofInner hs (by decide) (by decide) rfl), hs, ih]
    rfl

/-- Behind an open bracket the text goes on to the next closing one. -/
theorem exists_of_suffixes_some {acc cs : List Char} {ss : List Suffix}
    (h : suffixes (some acc) cs = .ok ss) :
    ∃ (inner rest : List Char) (s : Suffix) (us : List Suffix), cs = inner ++ ']' :: rest ∧
      Suffix.ofInner (acc.reverse ++ inner) = .ok s ∧ suffixes none rest = .ok us ∧
        ss = s :: us := by
  induction cs generalizing acc with
  | nil => cases h
  | cons c cs ih =>
    rw [suffixes] at h
    split at h
    case isTrue hc =>
      obtain ⟨s, us, hs, hus, rfl⟩ := exists_of_cons_eq_ok h
      exact ⟨[], cs, s, us, by rw [hc, List.nil_append], by rw [List.append_nil, hs], hus, rfl⟩
    case isFalse =>
      obtain ⟨inner, rest, s, us, rfl, hs, hus, rfl⟩ := ih h
      refine ⟨c :: inner, rest, s, us, rfl, ?_, hus, rfl⟩
      rw [List.reverse_cons, List.append_assoc] at hs
      exact hs

theorem spells_of_suffixes {cs : List Char} {ss : List Suffix} (h : suffixes none cs = .ok ss) :
    Spells cs ss := by
  induction hn : cs.length using Nat.strongRecOn generalizing cs ss with
  | ind n ih =>
    cases cs with
    | nil =>
      cases h
      exact .nil
    | cons c cs =>
      rw [suffixes] at h
      split at h
      case isFalse => cases h
      case isTrue hc =>
        obtain ⟨inner, rest, s, us, rfl, hs, hus, rfl⟩ := exists_of_suffixes_some h
        have hlt : rest.length < n := by
          rw [← hn, List.length_cons, List.length_append, List.length_cons]
          omega
        rw [hc]
        exact .cons hs (ih rest.length hlt hus rfl)

/-! ## Segments -/

theorem positions_of_count_eq_zero {ss : List Suffix} (h : ss.count .every = 0) :
    ss = (positions ss).map .at := by
  induction ss with
  | nil => rfl
  | cons s ss ih =>
    cases s with
    | every => simp at h
    | «at» n =>
      have hss : ss.count .every = 0 := by simpa using h
      exact congrArg (Suffix.at n :: ·) (ih hss)

theorem eq_replicate_of_positions_eq_nil {ss : List Suffix} (h : positions ss = []) :
    ss = List.replicate (ss.count .every) .every := by
  induction ss with
  | nil => rfl
  | cons s ss ih =>
    cases s with
    | every =>
      have hss : positions ss = [] := h
      rw [List.count_cons_self, List.replicate_succ, ← ih hss]
    | «at» n => cases h

/-- The suffixes that make up an access are those of the access. -/
theorem eq_suffixes_of_accessOf {ss : List Suffix} {a : Access} (h : accessOf ss = some a) :
    ss = a.suffixes := by
  simp only [accessOf] at h
  split at h
  case isTrue hcount =>
    have hss := positions_of_count_eq_zero hcount
    cases h
    split
    case isTrue hnil =>
      rw [List.isEmpty_iff.mp hnil] at hss
      exact hss
    case isFalse => exact hss
  case isFalse =>
    split at h
    case isTrue hnil =>
      cases h
      exact eq_replicate_of_positions_eq_nil (List.isEmpty_iff.mp hnil)
    case isFalse => cases h

/-- Positions make up an access of positions, or no access at all. -/
theorem accessOf_map_at (ns : List Nat) : ∃ a, accessOf (ns.map .at) = some a := by
  have hnone : (ns.map Suffix.at).count .every = 0 := by simp [List.count_eq_zero]
  simp only [accessOf, hnone, if_true]
  exact ⟨_, rfl⟩

/-- **What is read as a segment**: a key without brackets, and what spells suffixes of one kind. -/
theorem parseSegment_eq_ok_iff {path : String} {raw : List Char} {s : Segment} :
    parseSegment path raw = .ok s ↔
      raw ≠ [] ∧ ∃ (cs : List Char) (ss : List Suffix), raw = s.key.toList ++ cs ∧
        '[' ∉ s.key.toList ∧ ']' ∉ s.key.toList ∧ Spells cs ss ∧ accessOf ss = some s.access := by
  constructor
  · intro h
    rw [parseSegment] at h
    split at h
    case isTrue => cases h
    case isFalse hne =>
      dsimp only at h
      split at h
      case isTrue => cases h
      case isFalse hclose =>
        split at h
        case h_1 => cases h
        case h_2 ss hss =>
          split at h
          case h_2 => cases h
          case h_1 access haccess =>
            cases h
            refine ⟨fun hnil => hne (List.isEmpty_iff.mpr hnil), _, ss, ?_, ?_, ?_,
              spells_of_suffixes hss, haccess⟩
            · rw [String.toList_ofList, List.takeWhile_append_dropWhile]
            · rw [String.toList_ofList]
              intro hc
              have hne := List.mem_takeWhile_imp hc
              exact of_decide_eq_true hne rfl
            · rw [String.toList_ofList]
              rwa [Bool.not_eq_true, List.contains_eq_mem, decide_eq_false_iff_not] at hclose
  · rintro ⟨hne, cs, ss, rfl, hopen, hclose, hspells, haccess⟩
    have hkey : ∀ c ∈ s.key.toList, decide (c ≠ '[') = true :=
      fun c hc => decide_eq_true fun he => hopen (he ▸ hc)
    have hcs : cs.takeWhile (· ≠ '[') = [] ∧ cs.dropWhile (· ≠ '[') = cs := by
      cases hspells <;> simp
    rw [parseSegment, if_neg (fun he => hne (List.isEmpty_iff.mp he)),
      List.takeWhile_append_of_pos hkey, List.dropWhile_append_of_pos hkey, hcs.1, hcs.2,
      List.append_nil]
    dsimp only
    rw [if_neg (by rwa [Bool.not_eq_true, List.contains_eq_mem, decide_eq_false_iff_not]),
      hspells.suffixes]
    dsimp only
    rw [haccess, String.ofList_toList]

/-! ## What is read can be read back -/

theorem Suffix.proper_of_ofInner {inner : List Char} {s : Suffix}
    (h : Suffix.ofInner inner = .ok s) : s.Proper := by
  rcases ofInner_eq_ok_iff.mp h with ⟨-, rfl⟩ | ⟨n, hn, rfl⟩
  · exact trivial
  · exact Decimal.le_of_unsigned? hn

theorem Spells.proper {cs : List Char} {ss : List Suffix} (h : Spells cs ss) :
    ∀ s ∈ ss, s.Proper := by
  induction h with
  | nil => exact fun s hs => absurd hs List.not_mem_nil
  | cons hs _ ih => exact List.forall_mem_cons.mpr ⟨Suffix.proper_of_ofInner hs, ih⟩

theorem Access.proper_of_accessOf {ss : List Suffix} {a : Access} (hss : ∀ s ∈ ss, s.Proper)
    (h : accessOf ss = some a) : a.Proper := by
  have hsuffixes := eq_suffixes_of_accessOf h
  cases a with
  | plain => exact trivial
  | wildcard count =>
    rintro rfl
    rw [hsuffixes] at h
    cases h
  | indices ns =>
    refine ⟨?_, fun n hn => ?_⟩
    · rintro rfl
      rw [hsuffixes] at h
      cases h
    · refine hss (.at n) ?_
      rw [hsuffixes]
      exact List.mem_map_of_mem hn

theorem Segment.proper_of_parseSegment {path : String} {raw : List Char} {s : Segment}
    (hdot : '.' ∉ raw) (h : parseSegment path raw = .ok s) : s.Proper := by
  obtain ⟨hne, cs, ss, hraw, hopen, hclose, hspells, haccess⟩ := parseSegment_eq_ok_iff.mp h
  refine ⟨fun c hc => ⟨?_, ?_, ?_⟩, Access.proper_of_accessOf hspells.proper haccess, ?_⟩
  · rintro rfl
    exact hdot (hraw ▸ List.mem_append_left cs hc)
  · rintro rfl
    exact hopen hc
  · rintro rfl
    exact hclose hc
  · intro hkey hplain
    -- without a key and without suffixes nothing was written
    have hnil : ss = [] := by rw [eq_suffixes_of_accessOf haccess, hplain]; rfl
    subst hnil
    cases hspells
    rw [hkey] at hraw
    exact hne hraw

/-- Every segment is read from a piece of the path. -/
theorem exists_of_mem_parseSegments {path : String} {raws : List (List Char)}
    {ss : List Segment} (h : parseSegments path raws = .ok ss) {s : Segment} (hs : s ∈ ss) :
    ∃ raw ∈ raws, parseSegment path raw = .ok s := by
  induction raws generalizing ss with
  | nil =>
    cases h
    exact absurd hs List.not_mem_nil
  | cons raw raws ih =>
    obtain ⟨t, ts, ht, hts, rfl⟩ := exists_of_cons_eq_ok h
    rcases List.mem_cons.mp hs with rfl | hs
    · exact ⟨raw, List.mem_cons_self, ht⟩
    · obtain ⟨other, hother, hread⟩ := ih hts hs
      exact ⟨other, List.mem_cons_of_mem raw hother, hread⟩

/-- **The segments of a path can be read back** from their own text. -/
theorem proper_of_parse {path : String} {ss : List Segment} (h : parse path = .ok ss) :
    ∀ s ∈ ss, s.Proper := by
  intro s hs
  rw [parse] at h
  split at h
  case isTrue =>
    cases h
    exact absurd hs List.not_mem_nil
  case isFalse =>
    obtain ⟨raw, hraw, hread⟩ := exists_of_mem_parseSegments h hs
    exact Segment.proper_of_parseSegment (Text.not_mem_of_mem_splitChar hraw) hread

/-! ## Positions in the place of wildcards -/

/-- **Put positions in the place of wildcards**, from left to right, as far as there are any. -/
def concrete : List Nat → List Char → List Char
  | n :: ns, '[' :: '*' :: ']' :: cs => (indexText n).toList ++ concrete ns cs
  | ns, c :: cs => c :: concrete ns cs
  | _, [] => []

/-- The path with positions in the place of its wildcards. -/
def withPositions (path : String) (ns : List Nat) : String :=
  String.ofList (concrete ns path.toList)

/-- The suffixes with positions in the place of the wildcards among them, as positions. -/
def fill : List Suffix → List Nat → List Nat
  | .every :: ss, n :: ns => n :: fill ss ns
  | .at n :: ss, ns => n :: fill ss ns
  | _, _ => []

@[simp] theorem concrete_nil (ns : List Nat) : concrete ns [] = [] := by
  cases ns <;> rfl

theorem concrete_cons_of_ne {c : Char} (h : c ≠ '[') (ns : List Nat) (cs : List Char) :
    concrete ns (c :: cs) = c :: concrete ns cs := by
  cases ns with
  | nil =>
    rw [concrete]
    exact fun _ _ _ hns => nomatch hns
  | cons n ns =>
    rw [concrete]
    exact fun _ _ _ _ hc => absurd hc h

theorem concrete_append_of_not_mem {cs : List Char} (h : '[' ∉ cs) (ns : List Nat)
    (ds : List Char) : concrete ns (cs ++ ds) = cs ++ concrete ns ds := by
  induction cs with
  | nil => rfl
  | cons c cs ih =>
    have hc : c ≠ '[' := fun e => h (e ▸ List.mem_cons_self)
    rw [List.cons_append, concrete_cons_of_ne hc, ih fun hx => h (List.mem_cons_of_mem c hx)]
    rfl

theorem concrete_positions_nil (cs : List Char) : concrete [] cs = cs := by
  induction cs with
  | nil => rfl
  | cons c cs ih =>
    rw [concrete, ih]
    exact fun _ _ _ hns => nomatch hns

/-- A wildcard takes the next position. -/
theorem concrete_every (n : Nat) (ns : List Nat) (cs : List Char) :
    concrete (n :: ns) (Suffix.text .every ++ cs) = Suffix.text (.at n) ++ concrete ns cs := by
  rw [text_at]
  rfl

/-- A position that is there already is left as it is spelled. -/
theorem concrete_at {inner : List Char} {n : Nat} (h : Suffix.ofInner inner = .ok (.at n))
    (ns : List Nat) (cs : List Char) :
    concrete ns ('[' :: inner ++ ']' :: cs) = '[' :: inner ++ ']' :: concrete ns cs := by
  have hstar : '*' ∉ inner := by
    intro hc
    rcases ofInner_eq_ok_iff.mp h with ⟨-, hs⟩ | ⟨m, hm, -⟩
    · cases hs
    · rw [Json.unsigned?_eq_none_of_mem hc (by decide) rfl] at hm
      cases hm
  have hopen : '[' ∉ inner := not_mem_of_ofInner h (by decide) (by decide) rfl
  have hskip : concrete ns ('[' :: (inner ++ ']' :: cs)) =
      '[' :: concrete ns (inner ++ ']' :: cs) := by
    rw [concrete]
    rintro m ms ds - - hds
    cases inner with
    | nil => cases (List.cons.inj hds).1
    | cons c inner => exact hstar ((List.cons.inj hds).1 ▸ List.mem_cons_self)
  rw [List.cons_append, hskip, concrete_append_of_not_mem hopen, concrete_cons_of_ne (by decide)]
  rfl

/-- Nothing but what is between brackets changes, so the text starts as before. -/
theorem head?_concrete (ns : List Nat) (cs : List Char) : (concrete ns cs).head? = cs.head? := by
  unfold concrete
  split
  case h_1 n _ _ =>
    rw [← text_at]
    rfl
  case h_2 => rfl
  case h_3 => rfl

theorem concrete_eq_nil_iff {ns : List Nat} {cs : List Char} : concrete ns cs = [] ↔ cs = [] := by
  rw [← List.head?_eq_none_iff, head?_concrete, List.head?_eq_none_iff]

theorem dot_not_mem_concrete {ns : List Nat} {cs : List Char} (h : '.' ∉ cs) :
    '.' ∉ concrete ns cs := by
  fun_induction concrete ns cs with
  | case1 n ns cs ih =>
    have hcs : '.' ∉ cs := fun hc => h (by simp [hc])
    have hinner : '.' ∉ Suffix.inner (.at n) := Suffix.not_mem_inner (by decide) (by decide)
    rw [← text_at, Suffix.text]
    simp [hinner, ih hcs]
  | case2 ns c cs _ ih =>
    have hc : '.' ≠ c := fun e => h (e ▸ List.mem_cons_self)
    exact List.not_mem_cons_of_ne_of_not_mem hc (ih fun hx => h (List.mem_cons_of_mem c hx))
  | case3 => exact List.not_mem_nil

section Spells

variable {cs : List Char} {ss : List Suffix} {ns : List Nat}

/-- Suffixes start with a bracket. -/
theorem Spells.head? (h : Spells cs ss) : cs.head? = if ss.isEmpty then none else some '[' := by
  cases h <;> rfl

/-- **Wildcards take positions in turn**: those of the suffixes first, and the text behind them
takes what is left. -/
theorem Spells.concrete_append (h : Spells cs ss) (hns : ns.length = ss.count .every)
    (ms : List Nat) (ds : List Char) :
    concrete (ns ++ ms) (cs ++ ds) = concrete ns cs ++ concrete ms ds := by
  induction h generalizing ns with
  | nil =>
    rw [List.count_nil, List.length_eq_zero_iff] at hns
    rw [hns, concrete_nil]
    rfl
  | @cons inner cs s ss hs _ ih =>
    rcases ofInner_eq_ok_iff.mp hs with ⟨rfl, rfl⟩ | ⟨n, -, rfl⟩
    · rw [List.count_cons_self] at hns
      obtain ⟨n, ns, rfl⟩ := List.exists_cons_of_length_eq_add_one hns
      have hrest := ih (Nat.succ.inj hns)
      change concrete (n :: (ns ++ ms)) (Suffix.text .every ++ (cs ++ ds)) =
        concrete (n :: ns) (Suffix.text .every ++ cs) ++ concrete ms ds
      rw [concrete_every, concrete_every, hrest, List.append_assoc]
    · have hcount : ns.length = ss.count .every := by simpa using hns
      have hassoc : '[' :: inner ++ ']' :: cs ++ ds = '[' :: inner ++ ']' :: (cs ++ ds) := by simp
      rw [hassoc, concrete_at hs, concrete_at hs, ih hcount]
      simp

/-- **Positions are read where wildcards were.** -/
theorem Spells.concrete (h : Spells cs ss) (hns : ns.length = ss.count .every)
    (hbound : ∀ n ∈ ns, n ≤ Decimal.maxUnsigned) :
    Spells (Path.concrete ns cs) ((fill ss ns).map .at) := by
  induction h generalizing ns with
  | nil =>
    rw [concrete_nil]
    cases ns <;> exact .nil
  | @cons inner cs s ss hs _ ih =>
    rcases ofInner_eq_ok_iff.mp hs with ⟨rfl, rfl⟩ | ⟨n, -, rfl⟩
    · rw [List.count_cons_self] at hns
      obtain ⟨n, ns, rfl⟩ := List.exists_cons_of_length_eq_add_one hns
      obtain ⟨hn, hbound⟩ := List.forall_mem_cons.mp hbound
      have hread : Suffix.ofInner (Suffix.inner (.at n)) = .ok (.at n) := Suffix.ofInner_inner hn
      change Spells (Path.concrete (n :: ns) (Suffix.text .every ++ cs)) _
      rw [concrete_every, Suffix.text, List.append_assoc]
      exact .cons hread (ih (Nat.succ.inj hns) hbound)
    · have hcount : ns.length = ss.count .every := by simpa using hns
      rw [concrete_at hs]
      exact .cons hs (ih hcount hbound)

/-- A position that is read where a wildcard was fits into 64 bits. -/
theorem Spells.le_of_concrete (h : Spells cs ss) (hns : ns.length = ss.count .every)
    {us : List Suffix} (hus : Path.suffixes none (Path.concrete ns cs) = .ok us) :
    ∀ n ∈ ns, n ≤ Decimal.maxUnsigned := by
  induction h generalizing ns us with
  | nil =>
    rw [List.count_nil, List.length_eq_zero_iff] at hns
    rw [hns]
    exact fun n hn => absurd hn List.not_mem_nil
  | @cons inner cs s ss hs _ ih =>
    rcases ofInner_eq_ok_iff.mp hs with ⟨rfl, rfl⟩ | ⟨n, -, rfl⟩
    · rw [List.count_cons_self] at hns
      obtain ⟨n, ns, rfl⟩ := List.exists_cons_of_length_eq_add_one hns
      have hclose : ']' ∉ Suffix.inner (.at n) := Suffix.not_mem_inner (by decide) (by decide)
      change Path.suffixes none (Path.concrete (n :: ns) (Suffix.text .every ++ cs)) = .ok us at hus
      rw [concrete_every, Suffix.text, List.append_assoc, List.singleton_append,
        suffixes_bracket hclose] at hus
      obtain ⟨s, vs, hread, hrest, -⟩ := exists_of_cons_eq_ok hus
      refine List.forall_mem_cons.mpr ⟨?_, ih (Nat.succ.inj hns) hrest⟩
      rcases ofInner_eq_ok_iff.mp hread with ⟨hinner, -⟩ | ⟨m, hm, -⟩
      · have hstar : '*' ∈ Suffix.inner (.at n) := hinner ▸ List.mem_cons_self
        cases isDigit_of_mem_natText hstar
      · exact Decimal.le_of_unsigned?_natText hm
    · have hcount : ns.length = ss.count .every := by simpa using hns
      have hclose : ']' ∉ inner := not_mem_of_ofInner hs (by decide) (by decide) rfl
      rw [concrete_at hs, suffixes_bracket hclose] at hus
      obtain ⟨_, _, -, hrest, -⟩ := exists_of_cons_eq_ok hus
      exact ih hcount hrest

end Spells

/-- The wildcards of a segment take positions, and the text behind it takes what is left. -/
theorem concrete_append_of_parseSegment {path : String} {raw : List Char} {s : Segment}
    (h : parseSegment path raw = .ok s) {ns : List Nat}
    (hns : ns.length = s.access.suffixes.count .every) (ms : List Nat) (ds : List Char) :
    concrete (ns ++ ms) (raw ++ ds) = concrete ns raw ++ concrete ms ds := by
  obtain ⟨-, cs, ss, rfl, hopen, -, hspells, haccess⟩ := parseSegment_eq_ok_iff.mp h
  rw [← eq_suffixes_of_accessOf haccess] at hns
  rw [List.append_assoc, concrete_append_of_not_mem hopen, concrete_append_of_not_mem hopen,
    hspells.concrete_append hns, List.append_assoc]

end Reshape.Path
