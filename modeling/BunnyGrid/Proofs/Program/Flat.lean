import BunnyGrid.Program.Unroll

/-! Programs written out. What a program unrolls to under a limit is a first part of what its blocks
come to without one: the limit may end a body in the middle, but no copy of a body that was cut is
followed by anything that counts. -/
namespace BunnyGrid

/-- Lists that start alike go on alike if what follows agrees as far as it still counts. -/
theorem take_append_congr {α : Type} {k : Nat} {xs xs' ys ys' : List α}
    (hx : xs.take k = xs'.take k) (hy : ys.take (k - xs.length) = ys'.take (k - xs.length)) :
    (xs ++ ys).take k = (xs' ++ ys').take k := by
  have hlength : min k xs.length = min k xs'.length := by
    simpa using congrArg List.length hx
  have hleft : k - xs'.length = k - xs.length := by omega
  rw [List.take_append, List.take_append, hx, hy, hleft]

namespace Block

mutual

/-- The actions of a block, repeats with a plain count written out, all other control blocks left
out. -/
def flat : Block → List Action
  | act action => [action]
  | repeatLoop (.plain n) body => (List.replicate n.toNat (flatAll body)).flatten
  | repeatLoop (.expr _) _ => []
  | branch .. => []
  | whileLoop .. => []
  | unknown .. => []

def flatAll : List Block → List Action
  | [] => []
  | b :: rest => flat b ++ flatAll rest

end

mutual

/-- Whether a block is an action, or repeats such blocks a plain number of times. -/
def isStatic : Block → Bool
  | act _ => true
  | repeatLoop (.plain _) body => areStatic body
  | repeatLoop (.expr _) _ => false
  | branch .. => false
  | whileLoop .. => false
  | unknown .. => false

def areStatic : List Block → Bool
  | [] => true
  | b :: rest => isStatic b && areStatic rest

end

section Unroll
open Unrolled

variable (limit : Nat)

theorem copies_nil (n done : Nat) : copies (some limit) [] n done = [] := by
  induction n generalizing done with
  | zero => rfl
  | succ n ih => simp [copies, ih]

/-- Copies of a body that was cut at the limit are as good as copies of the whole body. -/
theorem copies_take (actions : List Action) (n done : Nat) :
    (copies (some limit) (actions.take limit) n done).take (limit - done) =
      (List.replicate n actions).flatten.take (limit - done) := by
  induction n generalizing done with
  | zero => rfl
  | succ n ih =>
    rw [copies, List.replicate_succ, List.flatten_cons]
    have hbody : (actions.take limit).take (limit - done) = actions.take (limit - done) := by
      rw [List.take_take, Nat.min_eq_left (Nat.sub_le ..)]
    refine take_append_congr hbody ?_
    rw [Nat.sub_sub]
    split
    case isTrue hfull =>
      have hle : limit ≤ done + (actions.take limit).length := by
        simpa [full] using hfull
      rw [Nat.sub_eq_zero_of_le hle, List.take_zero, List.take_zero]
    case isFalse => exact ih _

mutual

theorem unroll_take (b : Block) (done : Nat) :
    (unroll (some limit) done b).actions.take (limit - done) =
      (flat b).take (limit - done) := by
  cases b with
  | act action => rfl
  | branch | whileLoop | unknown => rfl
  | repeatLoop times body =>
    cases times with
    | expr e => rfl
    | plain n =>
      have hround : (unrollAll (some limit) 0 body).actions.take limit =
          (flatAll body).take limit := unrollAll_take body 0
      have hcopies := copies_take limit (flatAll body) n.toNat done
      simp only [unroll, flat, cut, hround]
      split
      case isFalse => exact hcopies
      case isTrue hempty =>
        rw [List.isEmpty_iff.mp hempty, copies_nil] at hcopies
        exact hcopies

theorem unrollAll_take (bs : List Block) (done : Nat) :
    (unrollAll (some limit) done bs).actions.take (limit - done) =
      (flatAll bs).take (limit - done) := by
  cases bs with
  | nil => rfl
  | cons b rest =>
    rw [unrollAll, flatAll]
    split
    case isTrue hfull =>
      have hle : limit ≤ done := by simpa [full] using hfull
      rw [Nat.sub_eq_zero_of_le hle, List.take_zero, List.take_zero]
    case isFalse =>
      -- The limit is compared with the length of what was unrolled, which may be cut already.
      refine take_append_congr (unroll_take b done) ?_
      rw [Nat.sub_sub]
      exact unrollAll_take rest _

end

end Unroll

section Unlimited
open Unrolled

theorem copies_none (body : List Action) (n done : Nat) :
    copies none body n done = (List.replicate n body).flatten := by
  induction n generalizing done with
  | zero => rfl
  | succ n ih =>
    rw [copies, ih, List.replicate_succ, List.flatten_cons]
    rfl

mutual

theorem unroll_none (b : Block) (done : Nat) : (unroll none done b).actions = flat b := by
  cases b with
  | act | branch | whileLoop | unknown => rfl
  | repeatLoop times body =>
    cases times with
    | expr e => rfl
    | plain n =>
      have hround : (unrollAll none 0 body).actions = flatAll body := unrollAll_none body 0
      simp only [unroll, flat, cut, hround]
      split
      case isFalse => exact copies_none ..
      case isTrue hempty => simp [List.isEmpty_iff.mp hempty]

theorem unrollAll_none (bs : List Block) (done : Nat) :
    (unrollAll none done bs).actions = flatAll bs := by
  cases bs with
  | nil => rfl
  | cons b rest =>
    rw [unrollAll, flatAll, ← unroll_none b done, ← unrollAll_none rest]
    rfl

end

/-- Actions by themselves are unrolled already. -/
theorem unrollAll_map_act (actions : List Action) (done : Nat) :
    unrollAll none done (actions.map act) = { actions } := by
  induction actions generalizing done with
  | nil => rfl
  | cons a rest ih =>
    have hrest : unrollAll none (done + 1) (rest.map act) = { actions := rest } := ih (done + 1)
    show Unrolled.mk (a :: (unrollAll none (done + 1) (rest.map act)).actions)
      (unrollAll none (done + 1) (rest.map act)).skipped = _
    rw [hrest]

theorem flatAll_eq_flatMap (bs : List Block) : flatAll bs = bs.flatMap flat := by
  induction bs with
  | nil => rfl
  | cons b rest ih => rw [flatAll, ih, List.flatMap_cons]

end Unlimited

end Block

namespace Program

/-- Under a limit a program unrolls to the first of its actions. -/
theorem unroll_actions (limit : Int) (p : Program) :
    (p.unroll (some limit)).actions = (Block.flatAll p).take limit.toNat :=
  Block.unrollAll_take _ p 0

/-- Without a limit a program unrolls to what its blocks are written out to, one after the other.
These are actions only, so unrolling them again changes nothing. Under a limit it unrolls to as many
of them as the limit allows, and to none if the limit is negative. -/
theorem unroll_cut_by_limit (limit : Int) (p : Program) :
    let whole := p.unroll none
    whole.actions = p.flatMap Block.flat ∧
      Program.unroll none (whole.actions.map .act) = { actions := whole.actions } ∧
      (p.unroll (some limit)).actions = whole.actions.take limit.toNat := by
  intro whole
  have hwhole : whole.actions = Block.flatAll p := Block.unrollAll_none p 0
  refine ⟨?_, ?_, ?_⟩
  · rw [hwhole, Block.flatAll_eq_flatMap]
  · exact Block.unrollAll_map_act whole.actions 0
  · rw [hwhole, unroll_actions]

/-- The limit is met in the second copy, inside the inner repeat. -/
example :
    let left : Action := .turn .left
    let right : Action := .turn .right
    let body : Program :=
      [.act left, .repeatLoop (.plain 2) [.act right], .whileLoop (.literal (.bool true)) []]
    (Program.unroll (some 5) [.repeatLoop (.plain 3) body]).actions =
      [left, right, right, left, right] := rfl

end Program
end BunnyGrid
