import BunnyGrid.Play.Evaluation
import BunnyGrid.Proofs.Value.Exactness

/-! Expressions of whole numbers. As long as no value on the way leaves the safe bound, an
expression has the value that it would have if whole numbers had no bound. -/
namespace BunnyGrid.Expr

/-- The value of an expression of whole numbers as such, without bounds. Variables that are not set
read as zero. An expression with any other part has none. -/
def ideal? (self : Option Bunny) : Expr → Option Int
  | literal (.number (.int i)) => some i
  | coord .x => some (self.elim 0 (·.x))
  | coord .y => some (self.elim 0 (·.y))
  | var name =>
    match self.bind (·.vars.lookup name) with
    | none => some 0
    | some (.number (.int i)) => some i
    | some _ => none
  | arith op l r => do
    let i ← ideal? self l
    let j ← ideal? self r
    some (op.ideal i j)
  | _ => none

/-- Whether the value of an expression, and with it every value on the way there, is within the safe
bound, and every operator on the way has a whole result. -/
def IsSafe (self : Option Bunny) : Expr → Prop
  | arith op l r =>
    IsSafe self l ∧ IsSafe self r ∧
    ∀ i ∈ ideal? self l, ∀ j ∈ ideal? self r, op.IsExact i j ∧ (op.ideal i j).natAbs ≤ 2 ^ 53
  | e => ∀ i ∈ ideal? self e, i.natAbs ≤ 2 ^ 53

variable {self : Option Bunny} {e l r : Expr} {op : ArithOp} {i : Int}

theorem ideal?_arith (h : (arith op l r).ideal? self = some i) :
    ∃ j k, l.ideal? self = some j ∧ r.ideal? self = some k ∧ op.ideal j k = i := by
  obtain ⟨j, hj, h⟩ := Option.bind_eq_some_iff.mp h
  obtain ⟨k, hk, h⟩ := Option.bind_eq_some_iff.mp h
  exact ⟨j, k, hj, hk, Option.some.inj h⟩

theorem IsSafe.le (h : e.IsSafe self) (hi : e.ideal? self = some i) : i.natAbs ≤ 2 ^ 53 := by
  cases e with
  | literal | coord | var => exact h i hi
  | arith op l r =>
    obtain ⟨j, k, hj, hk, rfl⟩ := ideal?_arith hi
    exact (h.2.2 j hj k hk).2
  | compare | logic | not | unknown => cases hi

theorem eval_var (name : String) (h : (var name).ideal? self = some i) :
    (var name).eval self = .int i := by
  cases self with
  | none =>
    cases h
    rfl
  | some b =>
    simp only [ideal?, Option.bind_some] at h
    simp only [eval, Option.elim_some, Store.get]
    split at h
    case h_1 hnone =>
      rw [hnone, ← Option.some.inj h]
      rfl
    case h_2 hread =>
      rw [hread, ← Option.some.inj h]
      rfl
    case h_3 => cases h

/-- A safe expression of whole numbers has its ideal value, as a whole number. -/
theorem eval_eq_ideal (hideal : e.ideal? self = some i) (hsafe : e.IsSafe self) :
    e.eval self = .int i := by
  induction e generalizing i with
  | literal v =>
    rcases v with _ | (i | d) | _ <;> cases hideal
    rfl
  | coord axis => cases axis <;> cases hideal <;> rfl
  | var name => exact eval_var name hideal
  | arith op l r ihl ihr =>
    obtain ⟨j, k, hj, hk, rfl⟩ := ideal?_arith hideal
    obtain ⟨hl, hr, hop⟩ := hsafe
    obtain ⟨hexact, hbound⟩ := hop j hj k hk
    rw [eval, ihl hj hl, ihr hk hr, Scalar.arith_exact (hl.le hj) (hr.le hk) hexact hbound]
    rfl
  | compare | logic | not | unknown => cases hideal

/-- What is left of the least safe number, and an even share of the greatest. -/
def edge : Expr :=
  .arith .add (.arith .rem (.var "least") (.literal (.int 7)))
    (.arith .div (.arith .pow (.literal (.int 2)) (.literal (.int 53))) (.coord .x))

def edgeBunny : Bunny := { x := 8, y := 0, vars := [("least", .int (-2 ^ 53))] }

theorem eval_eq_ideal_edge : edge.ideal? edgeBunny = some (2 ^ 50 - 4) ∧ edge.IsSafe edgeBunny ∧
    edge.eval edgeBunny = .int (2 ^ 50 - 4) := by
  have hideal : edge.ideal? edgeBunny = some (2 ^ 50 - 4) := by decide +kernel
  have hsafe : edge.IsSafe edgeBunny := by
    simp [edge, edgeBunny, IsSafe, ideal?, ArithOp.IsExact, ArithOp.ideal, Scalar.int,
      -Int.natAbs_tdiv]
  exact ⟨hideal, hsafe, eval_eq_ideal hideal hsafe⟩

end BunnyGrid.Expr
