/-
# Reshape.Proofs.Survey.Frontier -- a survey misses nothing

With wildcards and without single elements, a survey goes down a document by members and by first
elements. Such a way down is an *address*, and its path writes `[*]` for every first element
(`address`). A path has one address only (`address_inj`), as plain keys hold none of the characters
that divide a path.

The fields of a survey are a frontier of the document: on the way to any scalar there is exactly one
of them, and none is deeper than the survey goes (`exactly_one_field_on_way`). The induction is on
the way to the scalar. What carries it is that a walk below one child lists paths that go on from
the path of this child (`Extends`), so that no field below another child is on the way.
-/

import Reshape.Proofs.Survey.Cut

namespace Reshape.Survey

open Reshape.Path (below)

/-! ## Addresses -/

/-- **A step of an address**: to the member with a key, or to the first element of an array. -/
inductive Step where
  | member (key : String)
  | first
  deriving DecidableEq, Repr

namespace Step

/-- The value to which a step leads. -/
def child? : Step → Json → Option Json
  | .member key, .obj ms => Members.get? ms key
  | .first, .arr xs => xs.head?
  | _, _ => none

/-- The path that goes on by a step. -/
def extend (path : String) : Step → String
  | .member key => below path key
  | .first => path ++ Path.everyText

/-- The key of the step, if there is one, stands for itself in a path. -/
def Plain : Step → Prop
  | .member key => Path.PlainKey key
  | .first => True

end Step

/-- **The value at an address.** -/
def node? : List Step → Json → Option Json
  | [], value => some value
  | step :: steps, value => (step.child? value).bind (node? steps)

/-- The path that goes on by several steps. -/
def pathFrom (path : String) (steps : List Step) : String :=
  steps.foldl Step.extend path

/-- **The path of an address.** -/
def address (steps : List Step) : String :=
  pathFrom "" steps

/-- **A field is on the way** that goes on from a path by several steps: its path is that of the
first few of them. -/
def OnWay (path : String) (steps : List Step) (f : Field) : Prop :=
  ∃ taken, taken <+: steps ∧ f.path = pathFrom path taken

/-! ## Paths of addresses -/

namespace Step

variable {path other : String} {s t : Step}

theorem extend_first (path : String) : first.extend path = element path .every := rfl

theorem extend_ne_empty (h : s.Plain) : s.extend path ≠ "" := by
  cases s with
  | member key => exact below_ne_empty h.1
  | first => exact element_ne_empty path .every

theorem extends_extend (hpath : path ≠ "") : Extends path (s.extend path) := by
  cases s with
  | member key => exact extends_below hpath key
  | first => exact extends_element path .every

/-- A path that goes on by a step is longer. -/
theorem length_lt_extend (h : s.Plain) : path.toList.length < (s.extend path).toList.length := by
  cases s with
  | member key =>
    have hkey : 0 < key.toList.length :=
      List.length_pos_iff.mpr fun hnil => h.1 (String.toList_eq_nil_iff.mp hnil)
    show _ < (below path key).toList.length
    unfold below
    split
    · subst path
      simpa using hkey
    · simp only [String.toList_append, List.length_append]
      omega
  | first =>
    show _ < (path ++ Path.everyText).toList.length
    rw [String.toList_append, List.length_append]
    exact Nat.lt_add_of_pos_right (by decide)

theorem ne_of_extends (h : s.Plain) (hother : Extends (s.extend path) other) : other ≠ path := by
  rintro rfl
  obtain ⟨rest, hrest, -⟩ := hother
  have hlt : other.toList.length < (s.extend other).toList.length := length_lt_extend h
  have hlen := congrArg List.length hrest
  rw [List.length_append] at hlen
  omega

/-- A plain key does not begin as a bracket does. -/
theorem below_append_ne {key : String} (h : Path.PlainKey key) (x y : List Char) :
    (below path key).toList ++ x ≠ (element path .every).toList ++ y := by
  intro hsame
  have hbracket : (element path .every).toList = path.toList ++ ['[', '*', ']'] := by
    rw [element, String.toList_append, String.toList_ofList]
    rfl
  rw [hbracket] at hsame
  unfold below at hsame
  split at hsame
  case isTrue hpath =>
    subst hpath
    cases hkey : key.toList with
    | nil => exact h.1 (String.toList_eq_nil_iff.mp hkey)
    | cons c cs =>
      rw [hkey] at hsame
      have hc : c = '[' := by simpa using (List.cons.inj hsame).1
      exact (h.2 c (hkey ▸ List.mem_cons_self)).2.1 hc
  case isFalse =>
    simp only [String.toList_append, List.append_assoc] at hsame
    have hrest := List.append_cancel_left hsame
    exact absurd (List.cons.inj hrest).1 (by decide)

/-- **A path goes on by one step only.** -/
theorem eq_of_extends (hs : s.Plain) (ht : t.Plain) (h : Extends (s.extend path) other)
    (h' : Extends (t.extend path) other) : s = t := by
  cases s with
  | member key =>
    cases t with
    | member key' => exact congrArg member (eq_of_extends_below hs ht h h')
    | first =>
      obtain ⟨x, hx, -⟩ := h
      obtain ⟨y, hy, -⟩ := h'
      exact absurd (hx.symm.trans hy) (below_append_ne hs x y)
  | first =>
    cases t with
    | member key =>
      obtain ⟨x, hx, -⟩ := h
      obtain ⟨y, hy, -⟩ := h'
      exact absurd (hy.symm.trans hx) (below_append_ne ht y x)
    | first => rfl

/-- A path that was extended by steps never ends in the suffix for one element. -/
theorem underIndex_extend (h : s.Plain) : underIndex (s.extend path) = false := by
  cases s with
  | first =>
    have hstar : underWildcard (element path .every) = true := by
      apply underWildcard_of_suffix
      rw [element, String.toList_append, String.toList_ofList]
      exact List.suffix_append _ _
    rw [extend_first, underIndex, hstar, Bool.not_true, Bool.and_false]
  | member key =>
    have hclose : Text.endsWith [']'] (below path key).toList = false := by
      apply eq_false_of_ne_true
      intro hends
      have hlast : [']'] <:+ (below path key).toList := List.isSuffixOf_iff_suffix.mp hends
      have hkey : 0 < key.toList.length :=
        List.length_pos_iff.mpr fun hnil => h.1 (String.toList_eq_nil_iff.mp hnil)
      -- both end the path, and the key is no shorter than the bracket
      have hin : [']'] <:+ key.toList :=
        List.suffix_of_suffix_length_le hlast (suffix_below path key) hkey
      exact (h.2 ']' (hin.subset List.mem_cons_self)).2.2 rfl
    show (Text.endsWith [']'] (below path key).toList && _) = false
    rw [hclose, Bool.false_and]

end Step

theorem extends_pathFrom {path : String} (hpath : path ≠ "") {steps : List Step}
    (hsteps : ∀ s ∈ steps, s.Plain) : Extends path (pathFrom path steps) := by
  induction steps generalizing path with
  | nil => exact .refl path
  | cons s steps ih =>
    obtain ⟨hs, hsteps⟩ := List.forall_mem_cons.mp hsteps
    exact (Step.extends_extend hpath).trans (ih (Step.extend_ne_empty hs) hsteps)

theorem extends_pathFrom_cons {s : Step} {steps : List Step} (h : ∀ t ∈ s :: steps, t.Plain)
    (path : String) : Extends (s.extend path) (pathFrom path (s :: steps)) := by
  obtain ⟨hs, hsteps⟩ := List.forall_mem_cons.mp h
  exact extends_pathFrom (Step.extend_ne_empty hs) hsteps

/-- Steps can be read off the path to which they lead. -/
theorem pathFrom_inj {path : String} {steps others : List Step} (hsteps : ∀ s ∈ steps, s.Plain)
    (hothers : ∀ s ∈ others, s.Plain) (h : pathFrom path steps = pathFrom path others) :
    steps = others := by
  induction steps generalizing path others with
  | nil =>
    cases others with
    | nil => rfl
    | cons t others =>
      have hlonger := extends_pathFrom_cons hothers path
      rw [← h] at hlonger
      exact absurd rfl (Step.ne_of_extends (hothers t List.mem_cons_self) hlonger)
  | cons s steps ih =>
    have hs := hsteps s List.mem_cons_self
    have hlonger := extends_pathFrom_cons hsteps path
    cases others with
    | nil =>
      rw [h] at hlonger
      exact absurd rfl (Step.ne_of_extends hs hlonger)
    | cons t others =>
      have ht := hothers t List.mem_cons_self
      rw [h] at hlonger
      obtain rfl := Step.eq_of_extends hs ht hlonger (extends_pathFrom_cons hothers path)
      rw [ih (List.forall_mem_cons.mp hsteps).2 (List.forall_mem_cons.mp hothers).2 h]

/-- **A path is that of one address only.** -/
theorem address_inj {steps others : List Step} (hsteps : ∀ s ∈ steps, s.Plain)
    (hothers : ∀ s ∈ others, s.Plain) (h : address steps = address others) : steps = others :=
  pathFrom_inj hsteps hothers h

/-! ## One step of a walk -/

variable {o : Options} {path : String} {depth : Nat}

theorem walk_obj_of_entered {ms : Members} (h : ¬ (ms = [] ∨ depth = 0)) :
    walk o path depth (.obj ms) =
      ms.flatMap fun m => walk o (below path m.1) (depth - 1) m.2 := by
  rw [walk, if_neg (isEmpty_or_iff.not.mpr h), walkMembers_eq_flatMap]

theorem walk_obj_of_not_entered {ms : Members} (h : ms = [] ∨ depth = 0) (hpath : path ≠ "") :
    walk o path depth (.obj ms) = [field o path (.obj ms)] := by
  rw [walk, if_pos (isEmpty_or_iff.mpr h), if_neg hpath]

theorem walk_arr_of_not_entered {xs : List Json}
    (h : xs.any Json.isContainer = false ∨ depth = 0) :
    walk o path depth (.arr xs) = [field o path (.arr xs)] := by
  have hstop : (!xs.any Json.isContainer || depth = 0) = true := by simpa using h
  rw [walk, if_pos hstop]

theorem ite_isEmpty_ne_nil {α : Type} (a : α) (xs ys : List α) :
    (if xs.isEmpty && ys.isEmpty then [a] else xs ++ ys) ≠ [] := by
  cases xs <;> cases ys <;> simp

/-- An array that is entered is listed itself when nothing in it is. -/
theorem walk_arr_ne_nil (xs : List Json) : walk o path depth (.arr xs) ≠ [] := by
  by_cases hstop : (!xs.any Json.isContainer || depth = 0) = true
  · rw [walk, if_pos hstop]
    exact List.cons_ne_nil _ _
  · rw [walk, if_neg hstop]
    exact ite_isEmpty_ne_nil _ _ _

/-- Below a path there is always something to list. -/
theorem walk_ne_nil {value : Json} (hplain : value.Plain) (hpath : path ≠ "") :
    walk o path depth value ≠ [] := by
  induction hplain generalizing path depth with
  | scalar h =>
    rw [walk_scalar o path depth h]
    exact List.cons_ne_nil _ _
  | arr _ _ => exact walk_arr_ne_nil _
  | @obj ms _ hkeys _ ih =>
    by_cases hstop : ms = [] ∨ depth = 0
    · rw [walk_obj_of_not_entered hstop hpath]
      exact List.cons_ne_nil _ _
    · obtain ⟨m, ms, rfl⟩ := List.exists_cons_of_ne_nil fun e => hstop (.inl e)
      rw [walk_obj_of_entered hstop, List.flatMap_cons]
      have hm := @ih m List.mem_cons_self (below path m.1) (depth - 1)
        (below_ne_empty (hkeys m List.mem_cons_self).1)
      exact List.append_ne_nil_of_left_ne_nil hm _

/-- **An array is entered through its first element** when single elements are not asked for. -/
theorem walk_arr_of_entered (hwild : o.includeWildcards = true)
    (hindex : o.includeFixedIndices = false) (hpath : underIndex path = false) {x : Json}
    {xs : List Json} (hplain : x.Plain)
    (h : ¬ ((x :: xs).any Json.isContainer = false ∨ depth = 0)) :
    walk o path depth (.arr (x :: xs)) = walk o (Step.first.extend path) (depth - 1) x := by
  have hgo : ¬ (!(x :: xs).any Json.isContainer || depth = 0) = true := by simpa using h
  have hne :=
    @walk_ne_nil o (element path .every) (depth - 1) x hplain (element_ne_empty path .every)
  have hsome : ¬ ((walk o (Step.first.extend path) (depth - 1) x).isEmpty && true) = true := by
    rw [Step.extend_first]
    simpa using hne
  rw [walk, if_neg hgo, hwild, hindex, hpath]
  show (if (walk o (Step.first.extend path) (depth - 1) x).isEmpty && true then _ else _) = _
  rw [if_neg hsome]
  exact List.append_nil _

/-! ## The fields on a way -/

/-- **Where a survey may stop on the way**: at the end of it, at an array that holds no containers,
or at a container as deep as the survey goes. -/
def Stops (depth : Nat) (taken rest : List Step) (value : Json) : Prop :=
  rest = [] ∨ (∃ xs, value = .arr xs ∧ xs.any Json.isContainer = false) ∨
    taken.length = depth ∧ value.isContainer = true

/-- **Exactly one of the fields is on the way** from a value by several steps. It is that of a value
to which the first few of the steps lead, and the survey may stop there. -/
def OneOnWay (o : Options) (path : String) (depth : Nat) (steps : List Step) (value : Json)
    (fs : List Field) : Prop :=
  ∃ before taken rest node after, fs = before ++ field o (pathFrom path taken) node :: after ∧
    (∀ g ∈ before ++ after, ¬ OnWay path steps g) ∧
      steps = taken ++ rest ∧ node? taken value = some node ∧ Stops depth taken rest node

theorem pathFrom_cons (path : String) (s : Step) (steps : List Step) :
    pathFrom path (s :: steps) = pathFrom (s.extend path) steps := rfl

/-- A field below the first step is on the way when it is on the rest of the way. -/
theorem OnWay.tail {s : Step} (hs : s.Plain) {steps : List Step} {f : Field}
    (hf : Extends (s.extend path) f.path) (h : OnWay path (s :: steps) f) :
    OnWay (s.extend path) steps f := by
  obtain ⟨taken, htaken, hpath⟩ := h
  cases taken with
  | nil => exact absurd hpath (Step.ne_of_extends hs hf)
  | cons t taken =>
    obtain ⟨rfl, hrest⟩ := List.cons_prefix_cons.mp htaken
    exact ⟨taken, hrest, hpath⟩

/-- A value where the survey stops is the only one on the way. -/
theorem oneOnWay_singleton {steps : List Step} {value : Json} (h : Stops depth [] steps value) :
    OneOnWay o path depth steps value [field o path value] := by
  refine ⟨[], [], steps, value, [], rfl, ?_, rfl, rfl, h⟩
  exact fun g hg => absurd hg List.not_mem_nil

/-- **What is on the way below a child is on the way**, and nothing else is if all other fields
are of other children. -/
theorem OneOnWay.cons {s : Step} (hs : s.Plain) {steps : List Step} {value child : Json}
    (hchild : s.child? value = some child) (hdepth : depth ≠ 0) {fs before after : List Field}
    (h : OneOnWay o (s.extend path) (depth - 1) steps child fs)
    (hfs : ∀ f ∈ fs, Extends (s.extend path) f.path)
    (hothers : ∀ g ∈ before ++ after, ¬ OnWay path (s :: steps) g) :
    OneOnWay o path depth (s :: steps) value (before ++ (fs ++ after)) := by
  obtain ⟨inner, taken, rest, node, outer, rfl, hnone, rfl, hnode, hstops⟩ := h
  refine ⟨before ++ inner, s :: taken, rest, node, outer ++ after, ?_, ?_, rfl, ?_, ?_⟩
  · simp [pathFrom_cons]
  · intro g hg hway
    simp only [List.mem_append] at hg hothers hnone hfs
    rcases hg with (hg | hg) | (hg | hg)
    · exact hothers g (.inl hg) hway
    · exact hnone g (.inl hg) (hway.tail hs (hfs g (.inl hg)))
    · exact hnone g (.inr hg) (hway.tail hs (hfs g (.inr (List.mem_cons_of_mem _ hg))))
    · exact hothers g (.inr hg) hway
  · rw [node?, hchild]
    exact hnode
  · rcases hstops with hend | harray | ⟨hlength, hcontainer⟩
    · exact .inl hend
    · exact .inr (.inl harray)
    · refine .inr (.inr ⟨?_, hcontainer⟩)
      rw [List.length_cons]
      omega

/-- A field on the way goes on by the first step, or has not gone at all. -/
theorem OnWay.extends {s : Step} {steps : List Step} (hsteps : ∀ t ∈ s :: steps, t.Plain)
    {f : Field} (h : OnWay path (s :: steps) f) :
    f.path = path ∨ Extends (s.extend path) f.path := by
  obtain ⟨taken, htaken, hpath⟩ := h
  cases taken with
  | nil => exact .inl hpath
  | cons t taken =>
    obtain ⟨rfl, -⟩ := List.cons_prefix_cons.mp htaken
    rw [hpath]
    exact .inr (extends_pathFrom_cons (fun u hu => hsteps u (htaken.subset hu)) path)

theorem Step.child?_member {key : String} {value child : Json}
    (h : (Step.member key).child? value = some child) :
    ∃ ms, value = .obj ms ∧ Members.get? ms key = some child := by
  cases value with
  | obj ms => exact ⟨ms, rfl, h⟩
  | _ => cases h

theorem Step.child?_first {value child : Json} (h : Step.first.child? value = some child) :
    ∃ xs, value = .arr (child :: xs) := by
  cases value with
  | arr xs =>
    obtain ⟨xs, rfl⟩ := List.head?_eq_some_iff.mp h
    exact ⟨xs, rfl⟩
  | _ => cases h

/-- In a plain document, steps are plain, and lead to plain values. -/
theorem Step.plain_of_child? {s : Step} {value child : Json} (hplain : value.Plain)
    (h : s.child? value = some child) : s.Plain ∧ child.Plain := by
  cases s with
  | member key =>
    obtain ⟨ms, rfl, hget⟩ := Step.child?_member h
    have hmem := mem_of_lookup hget
    exact ⟨hplain.keys _ hmem, hplain.values _ hmem⟩
  | first =>
    obtain ⟨xs, rfl⟩ := Step.child?_first h
    exact ⟨trivial, hplain.items child List.mem_cons_self⟩

theorem plain_of_node? {steps : List Step} {value node : Json} (hplain : value.Plain)
    (h : node? steps value = some node) : ∀ s ∈ steps, s.Plain := by
  induction steps generalizing value with
  | nil => exact fun s hs => absurd hs List.not_mem_nil
  | cons s steps ih =>
    obtain ⟨child, hchild, hnode⟩ := Option.bind_eq_some_iff.mp h
    obtain ⟨hs, hchild⟩ := Step.plain_of_child? hplain hchild
    exact List.forall_mem_cons.mpr ⟨hs, ih hchild hnode⟩

/-- A member that is found is apart from all others. -/
theorem exists_split_of_get? {ms : Members} (hdistinct : ms.keys.Nodup) {key : String}
    {value : Json} (h : Members.get? ms key = some value) :
    ∃ before after, ms = before ++ (key, value) :: after ∧ ∀ m ∈ before ++ after, m.1 ≠ key := by
  obtain ⟨before, after, rfl⟩ := List.append_of_mem (mem_of_lookup h)
  refine ⟨before, after, rfl, ?_⟩
  intro m hm heq
  have hnodup : ((key, value) :: (before ++ after)).map Prod.fst |>.Nodup :=
    ((List.perm_middle.map Prod.fst).nodup_iff).mp hdistinct
  have hmem := List.mem_map_of_mem (f := Prod.fst) hm
  rw [heq] at hmem
  exact (List.nodup_cons.mp hnodup).1 hmem

/-- **On the way to a scalar there is exactly one field.** -/
theorem oneOnWay_walk (hwild : o.includeWildcards = true) (hindex : o.includeFixedIndices = false)
    {value scalar : Json} (hplain : value.Plain) {steps : List Step}
    (hnode : node? steps value = some scalar) (hscalar : scalar.isContainer = false)
    (hpath : underIndex path = false) (hstart : path ≠ "" ∨ depth ≠ 0) :
    OneOnWay o path depth steps value (walk o path depth value) := by
  induction steps generalizing path depth value with
  | nil =>
    cases hnode
    rw [walk_scalar o path depth hscalar]
    exact oneOnWay_singleton (.inl rfl)
  | cons s steps ih =>
    have hsteps := plain_of_node? hplain hnode
    have hs := hsteps s List.mem_cons_self
    obtain ⟨child, hchild, hnode⟩ := Option.bind_eq_some_iff.mp hnode
    have hplain' := (Step.plain_of_child? hplain hchild).2
    have hbelow : OneOnWay o (s.extend path) (depth - 1) steps child
        (walk o (s.extend path) (depth - 1) child) :=
      ih hplain' hnode (Step.underIndex_extend hs) (.inl (Step.extend_ne_empty hs))
    have hgoes : ∀ f ∈ walk o (s.extend path) (depth - 1) child, Extends (s.extend path) f.path :=
      fun f hf => extends_of_mem_walk hplain' (Step.extend_ne_empty hs) hf
    cases s with
    | first =>
      obtain ⟨xs, rfl⟩ := Step.child?_first hchild
      by_cases hstop : (child :: xs).any Json.isContainer = false ∨ depth = 0
      · rw [walk_arr_of_not_entered hstop]
        refine oneOnWay_singleton (.inr ?_)
        rcases hstop with hscalars | hzero
        · exact .inl ⟨_, rfl, hscalars⟩
        · exact .inr ⟨hzero.symm, rfl⟩
      · have hdepth : depth ≠ 0 := fun hzero => hstop (.inr hzero)
        have hnone : ∀ g ∈ ([] ++ [] : List Field), ¬ OnWay path (.first :: steps) g :=
          fun g hg => absurd hg List.not_mem_nil
        have hcons := hbelow.cons hs hchild hdepth hgoes hnone
        rw [walk_arr_of_entered hwild hindex hpath hplain' hstop]
        simpa using hcons
    | member key =>
      obtain ⟨ms, rfl, hget⟩ := Step.child?_member hchild
      have hms : ms ≠ [] := by
        rintro rfl
        cases hget
      by_cases hzero : depth = 0
      · rw [walk_obj_of_not_entered (.inr hzero) (hstart.resolve_right (not_not_intro hzero))]
        exact oneOnWay_singleton (.inr (.inr ⟨hzero.symm, rfl⟩))
      · obtain ⟨before, after, rfl, hothers⟩ := exists_split_of_get? hplain.distinct hget
        rw [walk_obj_of_entered (not_or_intro hms hzero), List.flatMap_append, List.flatMap_cons]
        refine hbelow.cons hs hchild hzero hgoes ?_
        intro g hg hway
        rw [← List.flatMap_append] at hg
        obtain ⟨m, hm, hg⟩ := List.mem_flatMap.mp hg
        have hmem : m ∈ before ++ (key, child) :: after := by
          rcases List.mem_append.mp hm with h | h
          · exact List.mem_append_left _ h
          · exact List.mem_append_right _ (List.mem_cons_of_mem _ h)
        have hkey := hplain.keys m hmem
        have hother : Extends ((Step.member m.1).extend path) g.path :=
          extends_of_mem_walk (hplain.values m hmem) (below_ne_empty hkey.1) hg
        rcases hway.extends hsteps with hsame | hsame
        · exact Step.ne_of_extends (s := .member m.1) hkey hother hsame
        · cases Step.eq_of_extends (s := .member m.1) hkey hs hother hsame
          exact hothers m hm rfl

/-! ## How deep fields are -/

/-- **Every field is that of a value at an address**, no deeper than the walk goes. -/
theorem exists_steps_of_mem_walk (hwild : o.includeWildcards = true)
    (hindex : o.includeFixedIndices = false) {value : Json} (hplain : value.Plain)
    (hpath : underIndex path = false) {f : Field} (hf : f ∈ walk o path depth value) :
    ∃ steps node, node? steps value = some node ∧ f = field o (pathFrom path steps) node ∧
      steps.length ≤ depth := by
  induction hplain generalizing path depth with
  | scalar h =>
    rw [walk_scalar o path depth h, List.mem_singleton] at hf
    exact ⟨[], _, rfl, hf, Nat.zero_le depth⟩
  | @arr xs hitems ih =>
    by_cases hstop : xs.any Json.isContainer = false ∨ depth = 0
    · rw [walk_arr_of_not_entered hstop, List.mem_singleton] at hf
      exact ⟨[], _, rfl, hf, Nat.zero_le depth⟩
    · cases xs with
      | nil => exact absurd (.inl rfl) hstop
      | cons x xs =>
        have hx := hitems x List.mem_cons_self
        rw [walk_arr_of_entered hwild hindex hpath hx hstop] at hf
        have hbelow : underIndex (Step.first.extend path) = false :=
          Step.underIndex_extend (s := .first) trivial
        obtain ⟨steps, node, hnode, hfield, hlength⟩ := ih x List.mem_cons_self hbelow hf
        refine ⟨.first :: steps, node, hnode, hfield, ?_⟩
        rw [List.length_cons]
        omega
  | @obj ms hdistinct hkeys hvalues ih =>
    by_cases hstop : ms = [] ∨ depth = 0
    · rw [walk, if_pos (isEmpty_or_iff.mpr hstop)] at hf
      split at hf
      case isTrue => exact absurd hf List.not_mem_nil
      case isFalse =>
        rw [List.mem_singleton] at hf
        exact ⟨[], _, rfl, hf, Nat.zero_le depth⟩
    · rw [walk_obj_of_entered hstop] at hf
      obtain ⟨m, hm, hf⟩ := List.mem_flatMap.mp hf
      have hbelow : underIndex (below path m.1) = false :=
        Step.underIndex_extend (s := .member m.1) (hkeys m hm)
      obtain ⟨steps, node, hnode, hfield, hlength⟩ := ih m hm hbelow hf
      refine ⟨.member m.1 :: steps, node, ?_, hfield, ?_⟩
      · rw [node?]
        show (Members.get? ms m.1).bind (node? steps) = _
        rw [Members.get?, lookup_of_mem hdistinct hm]
        exact hnode
      · rw [List.length_cons]
        omega

/-! ## Surveys -/

/-- **A survey misses nothing.** Let a plain document be surveyed with wildcards, without single
elements, and to some depth. On the way to every scalar that is reached by members and first
elements there is exactly one field. It is that of the scalar itself, of an array on the way that
holds no containers, or of the container to which the way leads in as many steps as the survey is
deep. Every field is that of a value at an address, the only one with its path, and no deeper than
the survey. -/
theorem exactly_one_field_on_way (hwild : o.includeWildcards = true)
    (hindex : o.includeFixedIndices = false) (hdepth : 1 ≤ o.maxDepth) {document : Json}
    (hplain : document.Plain) :
    (∀ (steps : List Step) (scalar : Json), node? steps document = some scalar →
        scalar.isContainer = false →
          ∃ before taken rest value after,
            fields o "" document = before ++ field o (address taken) value :: after ∧
              (∀ f ∈ before ++ after, ¬ ∃ others, others <+: steps ∧ f.path = address others) ∧
                steps = taken ++ rest ∧ node? taken document = some value ∧
                  (rest = [] ∨ (∃ xs, value = .arr xs ∧ xs.any Json.isContainer = false) ∨
                    taken.length = o.maxDepth ∧ value.isContainer = true)) ∧
      ∀ f ∈ fields o "" document, ∃ steps value, node? steps document = some value ∧
        f = field o (address steps) value ∧ steps.length ≤ o.maxDepth ∧
          ∀ others, (∀ s ∈ others, s.Plain) → address others = f.path → others = steps := by
  have hroot : underIndex "" = false := by decide
  constructor
  · intro steps scalar hnode hscalar
    exact oneOnWay_walk hwild hindex hplain hnode hscalar hroot (.inr (Nat.ne_of_gt hdepth))
  · intro f hf
    obtain ⟨steps, value, hnode, rfl, hlength⟩ :=
      exists_steps_of_mem_walk hwild hindex hplain hroot hf
    refine ⟨steps, value, hnode, rfl, hlength, fun others hothers hsame => ?_⟩
    exact address_inj hothers (plain_of_node? hplain hnode) hsame

/-- A survey that goes two steps deep. -/
def twoSteps : Options where
  maxDepth := 2

/-- A shelf with tags, and with books in rows. -/
def shelfDocument : Json :=
  .obj [("title", .str "Sea"), ("tags", .arr [.str "blue", .str "deep"]),
    ("rows", .arr [.arr [.obj [("id", Json.nat 7)], .null], .arr []])]

/-- The way to the id of the first book. -/
def idSteps : List Step :=
  [.member "rows", .first, .first, .member "id"]

/-- The field on the way to the id is that of the first row. -/
theorem exactly_one_field_on_way_shelf :
    shelfDocument.Plain ∧ node? idSteps shelfDocument = some (Json.nat 7) ∧
      (fields twoSteps "" shelfDocument).map Field.path = ["title", "tags", "rows[*]"] ∧
      (∃ before taken rest value after,
        fields twoSteps "" shelfDocument =
            before ++ field twoSteps (address taken) value :: after ∧
          (∀ f ∈ before ++ after, ¬ ∃ others, others <+: idSteps ∧ f.path = address others) ∧
            idSteps = taken ++ rest ∧ node? taken shelfDocument = some value) ∧
      ∀ f ∈ fields twoSteps "" shelfDocument, ∃ steps value,
        node? steps shelfDocument = some value ∧ f = field twoSteps (address steps) value ∧
          steps.length ≤ 2 := by
  have hplain : shelfDocument.Plain := by decide
  obtain ⟨hone, hdeep⟩ := @exactly_one_field_on_way twoSteps rfl rfl (by decide) _ hplain
  obtain ⟨before, taken, rest, value, after, hfields, hothers, hsteps, hvalue, -⟩ :=
    hone idSteps (Json.nat 7) rfl rfl
  refine ⟨hplain, rfl, by decide, ?_, ?_⟩
  · exact ⟨before, taken, rest, value, after, hfields, hothers, hsteps, hvalue⟩
  · intro f hf
    obtain ⟨steps, node, hnode, hfield, hlength, -⟩ := hdeep f hf
    exact ⟨steps, node, hnode, hfield, hlength⟩

end Reshape.Survey
