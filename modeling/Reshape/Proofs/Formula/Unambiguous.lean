/-
# Reshape.Proofs.Formula.Unambiguous -- one derivation at most

Two derivations of one symbol at the head of the same tokens are equal, and leave the same rest,
when neither could go on: the rests stop the symbol (`Stops`). With empty rests this says that a
list of tokens has at most one derivation.

A left side is the difficulty. The tokens of `a - b - c` begin with those of the chain `a - b`, and
what follows, a sign of the same level, does not stop the chain. So chains are compared without that
demand: one of the two is the other, grown by links from what the other left over (`Grown`). Only at
the end does the rest stop the level, and then nothing has grown. Rows of suffixes go the same way.
-/

import Reshape.Proofs.Formula.Shape

namespace Reshape.Formula.Grammar

/-! ## Left sides -/

section Grown

variable {G S : Type} {add : G → S → G} {kinds : G → List Kind} {stepKinds : S → List Kind}

/-- **One of two left sides is the other, grown by what the other left over.** -/
inductive Grown (add : G → S → G) (stepKinds : S → List Kind) (g g' : G) (r r' : List Kind) : Prop
  | right (steps : List S) (hg : g' = steps.foldl add g) (hr : r = steps.flatMap stepKinds ++ r')
  | left (steps : List S) (hg : g = steps.foldl add g') (hr : r' = steps.flatMap stepKinds ++ r)

theorem kinds_foldl (hadd : ∀ g s, kinds (add g s) = kinds g ++ stepKinds s) (steps : List S)
    (g : G) : kinds (steps.foldl add g) = kinds g ++ steps.flatMap stepKinds := by
  induction steps generalizing g with
  | nil => simp
  | cons s steps ih => rw [List.foldl_cons, ih, hadd, List.flatMap_cons, List.append_assoc]

/-- A step more on the left. `Follows` is what may come after a step. -/
theorem Grown.add_step {g g' : G} {s : S} {r r' : List Kind} {Follows : List Kind → Prop}
    (hg : Grown add stepKinds g g' (stepKinds s ++ r) r') (hr' : Follows r')
    (hsteps : ∀ s' ks, Follows (stepKinds s' ++ ks))
    (hunique : ∀ s' ks, Follows ks → stepKinds s ++ r = stepKinds s' ++ ks → s = s' ∧ r = ks) :
    Grown add stepKinds (add g s) g' r r' := by
  cases hg with
  | left steps hg hr =>
    refine .left (steps ++ [s]) ?_ ?_
    · rw [List.foldl_append, ← hg]
      rfl
    · rw [hr, List.flatMap_append, List.flatMap_singleton, List.append_assoc]
  | right steps hg hr =>
    cases steps with
    | nil =>
      -- both sides were equal before the step
      refine .left [s] ?_ ?_
      · rw [hg]
        rfl
      · rw [List.flatMap_singleton]
        exact hr.symm
    | cons s' steps =>
      have hfollows : Follows (steps.flatMap stepKinds ++ r') := by
        cases steps with
        | nil => exact hr'
        | cons s steps =>
          rw [List.flatMap_cons, List.append_assoc]
          exact hsteps s _
      rw [List.flatMap_cons, List.append_assoc] at hr
      obtain ⟨rfl, hrest⟩ := hunique s' _ hfollows hr
      exact .right steps hg hrest

/-- Nothing has grown where no step can follow. -/
theorem Grown.eq {g g' : G} {r r' : List Kind} (hg : Grown add stepKinds g g' r r')
    (hr : ∀ s ks, r ≠ stepKinds s ++ ks) (hr' : ∀ s ks, r' ≠ stepKinds s ++ ks) :
    g = g' ∧ r = r' := by
  cases hg with
  | right steps hg hsteps =>
    cases steps with
    | nil => exact ⟨hg.symm, hsteps⟩
    | cons s steps =>
      rw [List.flatMap_cons, List.append_assoc] at hsteps
      exact absurd hsteps (hr s _)
  | left steps hg hsteps =>
    cases steps with
    | nil => exact ⟨hg, hsteps.symm⟩
    | cons s steps =>
      rw [List.flatMap_cons, List.append_assoc] at hsteps
      exact absurd hsteps (hr' s _)

end Grown

theorem Chain.kinds_eq {l : Level} (c : Chain l) :
    c.kinds = c.first.kinds ++ c.links.flatMap Link.kinds := by
  conv => lhs; rw [c.eq_foldl, kinds_foldl Chain.kinds_grow, Chain.kinds]

theorem Suffixed.kinds_eq (s : Suffixed) :
    s.kinds = s.first.kinds ++ s.suffixes.flatMap Suffix.kinds := by
  conv => lhs; rw [s.eq_foldl, kinds_foldl Suffixed.kinds_suffix, Suffixed.kinds]

/-- No link follows a chain where its level stops. -/
theorem ne_link_of_stops {l : Level} {r : List Kind} (hr : Stops l.strength r) (s : Link l)
    (ks : List Kind) : r ≠ s.kinds ++ ks := by
  rintro rfl
  have h : s.op.kind.strength < l.strength := hr
  rw [s.op.strength_kind] at h
  exact Nat.lt_irrefl _ h

/-- Chains of which one has grown from the other are equal where the level stops. -/
theorem Chain.eq_of_grown {l : Level} {c c' : Chain l} {r r' : List Kind}
    (h : Grown Chain.grow Link.kinds c c' r r') (hr : Stops l.strength r)
    (hr' : Stops l.strength r') : c = c' ∧ r = r' :=
  h.eq (ne_link_of_stops hr) (ne_link_of_stops hr')

/-- A link more on a chain; an operand that is followed alike is the same operand. -/
theorem Chain.grown_link {l : Level} {c c' : Chain l} {r r' : List Kind} (s : Link l)
    (hc : Grown Chain.grow Link.kinds c c' (s.kinds ++ r) r') (hr' : Stops (l.strength + 1) r')
    (hunique : ∀ (s' : Link l) (ks : List Kind), Stops (l.strength + 1) ks →
      s.kinds ++ r = s'.kinds ++ ks → s = s' ∧ r = ks) :
    Grown Chain.grow Link.kinds (c.grow s) c' r r' :=
  hc.add_step hr' (fun s _ => .cons s.op.strength_lt) hunique

theorem ne_suffix_of_stops {r : List Kind} (hr : Stops 9 r) (x : Suffix) (ks : List Kind) :
    r ≠ x.kinds ++ ks := by
  rintro rfl
  cases x <;> exact Nat.lt_irrefl 9 hr

/-- A suffix more. -/
theorem Suffixed.grown_suffix {s s' : Suffixed} {r r' : List Kind} (x : Suffix)
    (hs : Grown Suffixed.suffix Suffix.kinds s s' (x.kinds ++ r) r') (hr' : NoCall r')
    (hunique : ∀ (x' : Suffix) (ks : List Kind), NoCall ks →
      x.kinds ++ r = x'.kinds ++ ks → x = x' ∧ r = ks) :
    Grown Suffixed.suffix Suffix.kinds (.suffix s x) s' r r' :=
  hs.add_step hr' Suffix.noCall hunique

/-! ## Words -/

theorem signKind_inj {op op' : UnaryOp} (h : signKind op = signKind op') : op = op' := by
  cases op <;> cases op' <;> first | rfl | cases h

theorem Constant.name_inj {c c' : Constant} (h : c.name = c'.name) : c = c' := by
  rcases c with _ | (_ | _) | _ | _ | _ | _ <;> rcases c' with _ | (_ | _) | _ | _ | _ | _ <;>
    first | rfl | exact absurd h (by decide)

theorem Constant.name_ne_math (c : Constant) : c.name ≠ "Math" := by
  intro h
  have hc := constant?_name c
  rw [h] at hc
  cases hc

theorem Constant.name_ne_freeName (c : Constant) (f : FreeFunction) : c.name ≠ freeName f := by
  intro h
  have hc := constant?_name c
  rw [h, constant?_freeName] at hc
  cases hc

theorem methodName_inj {m m' : Method} (h : m.name = m'.name) : m = m' :=
  Option.some.inj ((Method.ofName?_eq_some.mpr rfl).symm.trans (Method.ofName?_eq_some.mpr h))

theorem mathName_inj {f f' : MathFunction} (h : mathName f = mathName f') : f = f' :=
  Option.some.inj
    ((MathFunction.ofName?_eq_some.mpr rfl).symm.trans (MathFunction.ofName?_eq_some.mpr h))

theorem freeName_inj {f f' : FreeFunction} (h : freeName f = freeName f') : f = f' :=
  Option.some.inj
    ((FreeFunction.ofName?_eq_some.mpr rfl).symm.trans (FreeFunction.ofName?_eq_some.mpr h))

theorem Tighter.unique {l l' l'' : Level} (h : Tighter l l') (h' : Tighter l l'') : l' = l'' := by
  cases h <;> cases h' <;> rfl

/-! ## Derivations -/

/-- The next sign closes a list. -/
def Closes (ks : List Kind) : Prop :=
  ks.headD .eof = .rparen ∨ ks.headD .eof = .rbracket

theorem Closes.stops {ks : List Kind} (h : Closes ks) : Stops 1 ks := by
  unfold Stops
  rcases h with h | h <;> rw [h] <;> decide

theorem Closes.not_begins {ks : List Kind} (h : Closes ks) : ¬ Begins Kind.begins ks := by
  intro hb
  have hk := hb.headD
  rcases h with h | h <;> rw [h] at hk <;> cases hk

theorem Closes.ne_comma {ks ks' : List Kind} (h : Closes ks) : ks ≠ .comma :: ks' := by
  rintro rfl
  rcases h with h | h <;> cases h

theorem ne_signed {ks r r' : List Kind} {op : UnaryOp} (h : Begins Kind.beginsPrimary ks) :
    ks ++ r ≠ signKind op :: r' := by
  intro heq
  have hk := (h.append r).headD
  rw [heq] at hk
  cases op <;> cases hk

mutual

/-- **At most one expression** stands at the head of a list of tokens. -/
theorem Expression.unique : (d d' : Expression) → (r r' : List Kind) → Stops 1 r → Stops 1 r' →
    d.kinds ++ r = d'.kinds ++ r' → d = d' ∧ r = r'
  | .plain c, .plain c', r, r', hr, hr', h => by
    rw [Expression.kinds, Expression.kinds] at h
    have hc := Chain.compare c c' r r' (hr.mono (by decide)) (hr'.mono (by decide)) h
    obtain ⟨rfl, rfl⟩ := Chain.eq_of_grown hc (hr.mono (by decide)) (hr'.mono (by decide))
    exact ⟨rfl, rfl⟩
  | .plain c, .choice c' y n, r, r', hr, hr', h => by
    rw [Expression.kinds, Expression.kinds, List.append_assoc] at h
    have hc := Chain.compare c c' r _ (hr.mono (by decide)) (.cons (by decide)) h
    obtain ⟨-, rfl⟩ := Chain.eq_of_grown hc (hr.mono (by decide)) (.cons (by decide))
    -- the shorter expression would be followed by a question mark
    exact absurd hr (Nat.lt_irrefl 1)
  | .choice c y n, .plain c', r, r', hr, hr', h => by
    rw [Expression.kinds, Expression.kinds, List.append_assoc] at h
    have hc := Chain.compare c c' _ r' (.cons (by decide)) (hr'.mono (by decide)) h
    obtain ⟨-, rfl⟩ := Chain.eq_of_grown hc (.cons (by decide)) (hr'.mono (by decide))
    exact absurd hr' (Nat.lt_irrefl 1)
  | .choice c y n, .choice c' y' n', r, r', hr, hr', h => by
    simp only [Expression.kinds, List.append_assoc, List.cons_append] at h
    have hc := Chain.compare c c' _ _ (.cons (by decide)) (.cons (by decide)) h
    obtain ⟨rfl, hyes⟩ := Chain.eq_of_grown hc (.cons (by decide)) (.cons (by decide))
    obtain ⟨rfl, hno⟩ := Expression.unique y y' _ _ (.cons (by decide)) (.cons (by decide))
      (List.cons.inj hyes).2
    obtain ⟨rfl, rfl⟩ := Expression.unique n n' r r' hr hr' (List.cons.inj hno).2
    exact ⟨rfl, rfl⟩
termination_by structural d => d

theorem Chain.compare : {l : Level} → (c c' : Chain l) → (r r' : List Kind) →
    Stops (l.strength + 1) r → Stops (l.strength + 1) r' →
    c.kinds ++ r = c'.kinds ++ r' → Grown Chain.grow Link.kinds c c' r r'
  | l, .single o, c', r, r', hr, hr', h => by
    -- an operand alone is compared with the first operand of the other chain
    rw [Chain.kinds, c'.kinds_eq, List.append_assoc] at h
    have hstops : Stops (l.strength + 1) (c'.links.flatMap Link.kinds ++ r') := by
      cases hl : c'.links with
      | nil => exact hr'
      | cons s ss => exact s.op.strength_lt
    obtain ⟨ho, hrest⟩ := Operand.unique o c'.first r _ hr hstops h
    refine .right c'.links ?_ hrest
    rw [ho]
    exact c'.eq_foldl
  | l, .link c op o, c', r, r', hr, hr', h => by
    rw [Chain.kinds, List.append_assoc] at h
    have hc := Chain.compare c c' _ r' (.cons op.strength_lt) hr' h
    refine Chain.grown_link ⟨op, o⟩ hc hr' ?_
    rintro ⟨op', o'⟩ ks hks hsteps
    obtain ⟨hkind, hrest⟩ := List.cons.inj hsteps
    obtain rfl := Operator.kind_inj hkind
    obtain ⟨rfl, rfl⟩ := Operand.unique o o' r ks hr hks hrest
    exact ⟨rfl, rfl⟩
termination_by structural _ d => d

theorem Operand.unique : {l : Level} → (o o' : Operand l) → (r r' : List Kind) →
    Stops (l.strength + 1) r → Stops (l.strength + 1) r' →
    o.kinds ++ r = o'.kinds ++ r' → o = o' ∧ r = r'
  | _, .chain ht c, .chain ht' c', r, r', hr, hr', h => by
    rw [Operand.kinds, Operand.kinds] at h
    obtain rfl := ht.unique ht'
    rw [← ht.strength] at hr hr'
    have hc := Chain.compare c c' r r' (hr.mono (Nat.le_succ _)) (hr'.mono (Nat.le_succ _)) h
    obtain ⟨rfl, rfl⟩ := Chain.eq_of_grown hc hr hr'
    exact ⟨rfl, rfl⟩
  | _, .chain ht _, .power _, _, _, _, _, _ => by cases ht
  | _, .power _, .chain ht _, _, _, _, _, _ => by cases ht
  | _, .power p, .power p', r, r', hr, hr', h => by
    rw [Operand.kinds, Operand.kinds] at h
    obtain ⟨rfl, rfl⟩ := Power.unique p p' r r' hr hr' h
    exact ⟨rfl, rfl⟩
termination_by structural _ d => d

theorem Power.unique : (p p' : Power) → (r r' : List Kind) → Stops 8 r → Stops 8 r' →
    p.kinds ++ r = p'.kinds ++ r' → p = p' ∧ r = r'
  | .plain u, .plain u', r, r', hr, hr', h => by
    rw [Power.kinds, Power.kinds] at h
    obtain ⟨rfl, rfl⟩ := Unary.unique u u' r r' (hr.mono (by decide)) (hr'.mono (by decide)) h
    exact ⟨rfl, rfl⟩
  | .plain u, .pow u' p', r, r', hr, hr', h => by
    rw [Power.kinds, Power.kinds, List.append_assoc] at h
    obtain ⟨-, rfl⟩ := Unary.unique u u' r _ (hr.mono (by decide)) (.cons (by decide)) h
    -- the shorter power would be followed by `**`
    exact absurd hr (Nat.lt_irrefl 8)
  | .pow u p, .plain u', r, r', hr, hr', h => by
    rw [Power.kinds, Power.kinds, List.append_assoc] at h
    obtain ⟨-, rfl⟩ := Unary.unique u u' _ r' (.cons (by decide)) (hr'.mono (by decide)) h
    exact absurd hr' (Nat.lt_irrefl 8)
  | .pow u p, .pow u' p', r, r', hr, hr', h => by
    rw [Power.kinds, Power.kinds, List.append_assoc, List.append_assoc] at h
    obtain ⟨rfl, hp⟩ := Unary.unique u u' _ _ (.cons (by decide)) (.cons (by decide)) h
    obtain ⟨rfl, rfl⟩ := Power.unique p p' r r' hr hr' (List.cons.inj hp).2
    exact ⟨rfl, rfl⟩
termination_by structural d => d

theorem Unary.unique : (u u' : Unary) → (r r' : List Kind) → Stops 9 r → Stops 9 r' →
    u.kinds ++ r = u'.kinds ++ r' → u = u' ∧ r = r'
  | .plain s, .plain s', r, r', hr, hr', h => by
    rw [Unary.kinds, Unary.kinds] at h
    have hs := Suffixed.compare s s' r r' hr.noCall hr'.noCall h
    obtain ⟨rfl, rfl⟩ := hs.eq (ne_suffix_of_stops hr) (ne_suffix_of_stops hr')
    exact ⟨rfl, rfl⟩
  | .plain s, .signed op u', r, r', _, _, h => by
    rw [Unary.kinds, Unary.kinds] at h
    exact absurd h (ne_signed s.begins)
  | .signed op u, .plain s', r, r', _, _, h => by
    rw [Unary.kinds, Unary.kinds] at h
    exact absurd h.symm (ne_signed s'.begins)
  | .signed op u, .signed op' u', r, r', hr, hr', h => by
    rw [Unary.kinds, Unary.kinds] at h
    obtain ⟨hop, hu⟩ := List.cons.inj h
    obtain rfl := signKind_inj hop
    obtain ⟨rfl, rfl⟩ := Unary.unique u u' r r' hr hr' hu
    exact ⟨rfl, rfl⟩
termination_by structural d => d

theorem Suffixed.compare : (s s' : Suffixed) → (r r' : List Kind) →
    NoCall r → NoCall r' →
    s.kinds ++ r = s'.kinds ++ r' → Grown Suffixed.suffix Suffix.kinds s s' r r'
  | .plain p, s', r, r', hr, hr', h => by
    rw [Suffixed.kinds, s'.kinds_eq, List.append_assoc] at h
    obtain ⟨hp, hrest⟩ := Primary.unique p s'.first r _ h
    refine .right s'.suffixes ?_ hrest
    rw [hp]
    exact s'.eq_foldl
  | .suffix s x, s', r, r', hr, hr', h => by
    rw [Suffixed.kinds, List.append_assoc] at h
    have hs := Suffixed.compare s s' _ r' (x.noCall r) hr' h
    exact Suffixed.grown_suffix x hs hr' fun x' ks hks => Suffix.unique x x' r ks hr hks
termination_by structural d => d

theorem Suffix.unique : (x x' : Suffix) → (r r' : List Kind) → NoCall r → NoCall r' →
    x.kinds ++ r = x'.kinds ++ r' → x = x' ∧ r = r'
  | .member name, .member name', r, r', _, _, h => by
    obtain ⟨rfl, rfl⟩ : name = name' ∧ r = r' := by simpa [Suffix.kinds] using h
    exact ⟨rfl, rfl⟩
  | .member name, .method m args, r, r', hr, _, h => by
    -- a member is not called, for the tokens after it do not open a parenthesis
    obtain ⟨-, rfl⟩ : name = m.name ∧ r = .lparen :: (args.kinds ++ .rparen :: r') := by
      simpa [Suffix.kinds] using h
    exact absurd rfl hr
  | .method m args, .member name, r, r', _, hr', h => by
    obtain ⟨-, rfl⟩ : m.name = name ∧ .lparen :: (args.kinds ++ .rparen :: r) = r' := by
      simpa [Suffix.kinds] using h
    exact absurd rfl hr'
  | .method m args, .method m' args', r, r', _, _, h => by
    obtain ⟨hm, hargs⟩ : m.name = m'.name ∧
        args.kinds ++ .rparen :: r = args'.kinds ++ .rparen :: r' := by
      simpa [Suffix.kinds] using h
    obtain rfl := methodName_inj hm
    obtain ⟨rfl, hrest⟩ := Sequence.unique args args' _ _ (.inl rfl) (.inl rfl) hargs
    exact ⟨rfl, (List.cons.inj hrest).2⟩
  | .index key, .index key', r, r', _, _, h => by
    have hkeys : key.kinds ++ .rbracket :: r = key'.kinds ++ .rbracket :: r' := by
      simpa [Suffix.kinds] using h
    obtain ⟨rfl, hrest⟩ := Expression.unique key key' _ _ (.cons (by decide)) (.cons (by decide))
      hkeys
    exact ⟨rfl, (List.cons.inj hrest).2⟩
  | .member _, .index _, _, _, _, _, h => by simp [Suffix.kinds] at h
  | .method _ _, .index _, _, _, _, _, h => by simp [Suffix.kinds] at h
  | .index _, .member _, _, _, _, _, h => by simp [Suffix.kinds] at h
  | .index _, .method _ _, _, _, _, _, h => by simp [Suffix.kinds] at h
termination_by structural d => d

theorem Primary.unique : (p p' : Primary) → (r r' : List Kind) →
    p.kinds ++ r = p'.kinds ++ r' → p = p' ∧ r = r'
  | .number x, p', r, r', h => by
    cases p' <;> simp [Primary.kinds] at h
    obtain ⟨rfl, rfl⟩ := h
    exact ⟨rfl, rfl⟩
  | .str text, p', r, r', h => by
    cases p' <;> simp [Primary.kinds] at h
    obtain ⟨rfl, rfl⟩ := h
    exact ⟨rfl, rfl⟩
  | .constant c, p', r, r', h => by
    cases p' with
    | constant c' =>
      obtain ⟨hc, rfl⟩ : c.name = c'.name ∧ r = r' := by simpa [Primary.kinds] using h
      exact ⟨congrArg Primary.constant (Constant.name_inj hc), rfl⟩
    | math f args => simp [Primary.kinds, c.name_ne_math] at h
    | call f args => simp [Primary.kinds, c.name_ne_freeName] at h
    | _ => simp [Primary.kinds] at h
  | .parens e, p', r, r', h => by
    cases p' with
    | parens e' =>
      have he : e.kinds ++ .rparen :: r = e'.kinds ++ .rparen :: r' := by
        simpa [Primary.kinds] using h
      obtain ⟨rfl, hrest⟩ := Expression.unique e e' _ _ (.cons (by decide)) (.cons (by decide)) he
      exact ⟨rfl, (List.cons.inj hrest).2⟩
    | _ => simp [Primary.kinds] at h
  | .array items, p', r, r', h => by
    cases p' with
    | array items' =>
      have hitems : items.kinds ++ .rbracket :: r = items'.kinds ++ .rbracket :: r' := by
        simpa [Primary.kinds] using h
      obtain ⟨rfl, hrest⟩ := Sequence.unique items items' _ _ (.inr rfl) (.inr rfl) hitems
      exact ⟨rfl, (List.cons.inj hrest).2⟩
    | _ => simp [Primary.kinds] at h
  | .math f args, p', r, r', h => by
    cases p' with
    | constant c => simp [Primary.kinds, c.name_ne_math.symm] at h
    | math f' args' =>
      obtain ⟨hf, hargs⟩ : mathName f = mathName f' ∧
          args.kinds ++ .rparen :: r = args'.kinds ++ .rparen :: r' := by
        simpa [Primary.kinds] using h
      obtain rfl := mathName_inj hf
      obtain ⟨rfl, hrest⟩ := Sequence.unique args args' _ _ (.inl rfl) (.inl rfl) hargs
      exact ⟨rfl, (List.cons.inj hrest).2⟩
    | _ => simp [Primary.kinds] at h
  | .call f args, p', r, r', h => by
    cases p' with
    | constant c => simp [Primary.kinds, (c.name_ne_freeName f).symm] at h
    | call f' args' =>
      obtain ⟨hf, hargs⟩ : freeName f = freeName f' ∧
          args.kinds ++ .rparen :: r = args'.kinds ++ .rparen :: r' := by
        simpa [Primary.kinds] using h
      obtain rfl := freeName_inj hf
      obtain ⟨rfl, hrest⟩ := Sequence.unique args args' _ _ (.inl rfl) (.inl rfl) hargs
      exact ⟨rfl, (List.cons.inj hrest).2⟩
    | _ => simp [Primary.kinds] at h
termination_by structural d => d

theorem Sequence.unique : (es es' : Sequence) → (r r' : List Kind) → Closes r → Closes r' →
    es.kinds ++ r = es'.kinds ++ r' → es = es' ∧ r = r'
  | .empty, .empty, r, r', _, _, h => by
    rw [Sequence.kinds] at h
    exact ⟨rfl, h⟩
  | .empty, .items es', r, r', hr, _, h => by
    rw [Sequence.kinds, Sequence.kinds, List.nil_append] at h
    exact absurd (h ▸ es'.begins.append r') hr.not_begins
  | .items es, .empty, r, r', _, hr', h => by
    rw [Sequence.kinds, Sequence.kinds, List.nil_append] at h
    exact absurd (h ▸ es.begins.append r) hr'.not_begins
  | .items es, .items es', r, r', hr, hr', h => by
    rw [Sequence.kinds, Sequence.kinds] at h
    obtain ⟨rfl, rfl⟩ := Items.unique es es' r r' hr hr' h
    exact ⟨rfl, rfl⟩
termination_by structural d => d

theorem Items.unique : (es es' : Items) → (r r' : List Kind) → Closes r → Closes r' →
    es.kinds ++ r = es'.kinds ++ r' → es = es' ∧ r = r'
  | .last e, .last e', r, r', hr, hr', h => by
    rw [Items.kinds, Items.kinds] at h
    obtain ⟨rfl, rfl⟩ := Expression.unique e e' r r' hr.stops hr'.stops h
    exact ⟨rfl, rfl⟩
  | .last e, .more e' es', r, r', hr, hr', h => by
    rw [Items.kinds, Items.kinds, List.append_assoc] at h
    obtain ⟨-, hrest⟩ := Expression.unique e e' r _ hr.stops (.cons (by decide)) h
    exact absurd hrest hr.ne_comma
  | .more e es, .last e', r, r', hr, hr', h => by
    rw [Items.kinds, Items.kinds, List.append_assoc] at h
    obtain ⟨-, hrest⟩ := Expression.unique e e' _ r' (.cons (by decide)) hr'.stops h
    exact absurd hrest.symm hr'.ne_comma
  | .more e es, .more e' es', r, r', hr, hr', h => by
    rw [Items.kinds, Items.kinds, List.append_assoc, List.append_assoc] at h
    obtain ⟨rfl, hes⟩ := Expression.unique e e' _ _ (.cons (by decide)) (.cons (by decide)) h
    obtain ⟨rfl, rfl⟩ := Items.unique es es' r r' hr hr' (List.cons.inj hes).2
    exact ⟨rfl, rfl⟩
termination_by structural d => d

end

end Reshape.Formula.Grammar
