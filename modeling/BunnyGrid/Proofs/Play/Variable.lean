import BunnyGrid.Proofs.Play.Change
import BunnyGrid.Proofs.Value.Bounded
import Mathlib.Algebra.Group.Int.Defs

/-! Every number that a program computes is in normal form, and so is what a variable holds after it
was changed, whatever it held before. -/
namespace BunnyGrid

theorem Store.lookup_set (s : Store) (name : String) (v : Scalar) :
    (s.set name v).lookup name = some v := by
  induction s with
  | nil => simp [set]
  | cons entry rest ih =>
    obtain ⟨key, old⟩ := entry
    rw [set]
    split
    case isTrue hkey => simp [hkey]
    case isFalse hkey =>
      rw [List.lookup_cons, beq_false_of_ne (Ne.symm hkey)]
      exact ih

namespace Play

variable {p : Play} {who : Actor}

/-- A bunny that goes on and changes a variable has the sum in it. -/
theorem exec_changeVar (rules : Rules) (h : p.halted who = false) (name : String) (delta : Expr) :
    ∃ b b', p.bunny? who = some b ∧
      (p.exec rules who (.act (.changeVar name delta))).bunny? who = some b' ∧
      b'.vars.lookup name = some (.number
        (Scalar.arith .add (b.vars.get name) (delta.eval (p.self? who)))) := by
  obtain ⟨b, hb, -⟩ := exists_bunny_of_not_halted h
  let sum := Scalar.arith .add (b.vars.get name) (delta.eval (p.self? who))
  refine ⟨b, { b with vars := b.vars.set name (.number sum) }, hb, ?_, Store.lookup_set _ _ _⟩
  rw [exec, h]
  show (record _ who .variable "").bunny? who = _
  rw [bunny?_record]
  exact bunny?_mapBunny_of_some hb _

/-- Values count as normal numbers and arithmetic gives normal numbers, whatever they are. The
normal numbers are those that count as themselves. After a bunny that goes on changed a variable,
the variable holds a normal number. -/
theorem numbers_stay_normal (rules : Rules) (p : Play) (who : Actor) (name : String)
    (delta : Expr) :
    (∀ d : Data, d.toNumber.IsNormal) ∧
    (∀ op (a b : Data), (Data.arith op a b).IsNormal) ∧
    (∀ n : Number, (Data.scalar (.number n)).toNumber = n ↔ n.IsNormal) ∧
    (∀ d : Data, (Data.scalar (.number d.toNumber)).toNumber = d.toNumber) ∧
    (∀ op (a b : Data),
      (Data.scalar (.number (Data.arith op a b))).toNumber = Data.arith op a b) ∧
    (p.halted who = false →
      ∃ b n, (p.exec rules who (.act (.changeVar name delta))).bunny? who = some b ∧
        b.vars.lookup name = some (.number n) ∧ n.IsNormal) := by
  refine ⟨Data.toNumber_isNormal, Data.arith_isNormal, fun n => n.bounded_eq_self_iff,
    fun d => Number.bounded_eq_self_iff.mpr d.toNumber_isNormal,
    fun op a b => Number.bounded_eq_self_iff.mpr (Data.arith_isNormal op a b), fun h => ?_⟩
  obtain ⟨b, b', -, hb', hsum⟩ := exec_changeVar rules h name delta
  exact ⟨b', _, hb', hsum, Number.bounded_isNormal _⟩

/-- A bunny that counts beyond the safe bound. -/
def counting : Play where
  world :=
    { grid := ⟨1, #v[#v[{}]]⟩, bunnies := [{ x := 0, y := 0, vars := [("n", .int (2 ^ 53))] }] }

theorem numbers_stay_normal_counting : counting.halted (.ofSlot 0) = false ∧
    ∃ b n, (counting.exec {} (.ofSlot 0) (.act (.changeVar "n" (.literal (.int 1))))).bunny?
        (.ofSlot 0) = some b ∧ b.vars.lookup "n" = some (.number n) ∧ n.IsNormal := by
  obtain ⟨-, -, -, -, -, hchange⟩ :=
    numbers_stay_normal {} counting (.ofSlot 0) "n" (.literal (.int 1))
  exact ⟨rfl, hchange rfl⟩

end Play
end BunnyGrid
