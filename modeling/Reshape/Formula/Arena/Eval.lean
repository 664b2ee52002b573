/-
# Reshape.Formula.Arena.Eval -- the value of numbered nodes

Evaluation by places: a node is looked up, and its parts are evaluated by their places in turn. The
places are followed wherever they lead, so evaluation keeps account of the nodes it visits, and can
stop for reasons that a tree does not have: there is no root, a place is outside the arena, or the
levels of recursion that it may use are spent.
-/

import Reshape.Formula.Arena.Reading
import Reshape.Formula.Eval

namespace Reshape.Formula

/-- Why an evaluation by places stops. -/
inductive Stop where
  | fault (error : EvalError)
  | noRoot
  | outside (id : NodeId)
  | tooDeep
  deriving DecidableEq, Repr

/-- **A walk over an arena**: the nodes it visited, first one first, and what came of it. -/
structure Walk (α : Type) where
  visited : List NodeId
  outcome : Except Stop α

namespace Walk

variable {α β : Type}

/-- No step at all. -/
def done (outcome : Except Stop α) : Walk α := ⟨[], outcome⟩

/-- A walk that goes on with what came of another, unless that one stopped. -/
def andThen (w : Walk α) (f : α → Walk β) : Walk β :=
  match w.outcome with
  | .ok v => ⟨w.visited ++ (f v).visited, (f v).outcome⟩
  | .error e => ⟨w.visited, .error e⟩

instance : Monad Walk where
  pure v := done (.ok v)
  bind := andThen

/-- Visit a node. -/
def visit (id : NodeId) : Walk Unit := ⟨[id], .ok ()⟩

/-- What an operation gives. -/
def lift (r : Except EvalError α) : Walk α := done (r.mapError .fault)

/-- One walk after the other. -/
def each (f : NodeId → Walk α) : List NodeId → Walk (List α)
  | [] => return []
  | id :: ids => do
    let v ← f id
    let vs ← each f ids
    return v :: vs

end Walk

namespace Arena

open Walk

/-- **The value of the node at a place**, with so many levels of recursion left. -/
def evalAt (a : Arena) (input : Value) : (levels : Nat) → NodeId → Walk Value
  | 0, _ => done (.error .tooDeep)
  | levels + 1, id =>
    match a.nodes[id.toNat]? with
    | none => done (.error (.outside id))
    | some node => do
      visit id
      match node with
      | .number x => return .num x
      | .str s => return .str s.toList
      | .bool b => return .bool b
      | .null => return .null
      | .undefined => return .undefined
      | .input => return input
      | .array items => do
        let vs ← each (a.evalAt input levels) items
        return .array vs
      | .unary op t => do
        let v ← a.evalAt input levels t
        return applyUnary op v
      | .binary op l r => do
        let x ← a.evalAt input levels l
        let y ← a.evalAt input levels r
        return applyBinary op x y
      | .logical op l r => do
        let x ← a.evalAt input levels l
        if x.truthy == (op == .or) then return x else a.evalAt input levels r
      | .conditional c y n => do
        let v ← a.evalAt input levels c
        if v.truthy then a.evalAt input levels y else a.evalAt input levels n
      | .member t name => do
        let v ← a.evalAt input levels t
        lift (property v name)
      | .index t key => do
        let v ← a.evalAt input levels t
        let k ← a.evalAt input levels key
        lift (element v k)
      | .method t m args => do
        let v ← a.evalAt input levels t
        let vs ← each (a.evalAt input levels) args
        lift (callMethod v m vs)
      | .math f args => do
        let vs ← each (a.evalAt input levels) args
        return .num (callMath f vs)
      | .call f args => do
        let vs ← each (a.evalAt input levels) args
        return callFree f vs

/-- **The value of an arena** for an input, with `maxDepth` levels of recursion. -/
def eval (a : Arena) (input : Value) : Walk Value :=
  match a.root with
  | none => done (.error .noRoot)
  | some id => a.evalAt input maxDepth id

end Arena

end Reshape.Formula
