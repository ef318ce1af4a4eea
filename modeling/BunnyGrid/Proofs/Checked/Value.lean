import BunnyGrid.Play.Evaluation
import BunnyGrid.Proofs.Value.Bounded
import Mathlib.Data.Nat.Init

/-! Evaluation in which every operation on values fails where it has no result. Arithmetic answers
three of these failures with zero, and no other failure is ever met: what is evaluated is the value
of the expression. -/
namespace BunnyGrid

/-- Why an operation has no result. -/
inductive Fault
  | zeroDivision
  | overflow
  /-- A text that is no numeral, or an operand for which an operation is not defined. -/
  | badValue
  /-- Values of different kinds are put in order. -/
  | mixedKinds
  | noBunny (slot : Nat)
  | offGrid (x y : Int)
  | noBlock (index : Nat)
  | noMap
  deriving DecidableEq

/-- Whether arithmetic takes zero for the result that is missing. -/
def Fault.isArithmetic : Fault → Bool
  | .zeroDivision | .overflow | .badValue => true
  | _ => false

namespace Checked

/-- The double of a number. A whole number past every finite double has none. -/
def double : Number → Except Fault Double
  | .int i => if (Double.ofInt i).isFinite then .ok (.ofInt i) else .error .overflow
  | .double d => .ok d

/-- The whole part of a number. NaN and the infinities have none. -/
def whole : Number → Except Fault Int
  | .int i => .ok i
  | .double d =>
    match d.truncate? with
    | some i => .ok i
    | none => .error (if d.isNaN then .badValue else .overflow)

/-- What an operator gives: a number, or a point off the real line. -/
inductive Outcome
  | real (n : Number)
  | complex

/-- An operator on the doubles of its operands. -/
def onDoubles (f : Double → Double → Except Fault Outcome) (a b : Number) :
    Except Fault Outcome := do
  let x ← double a
  let y ← double b
  f x y

def quotient (a b : Double) : Except Fault Outcome :=
  if b.isZero then .error .zeroDivision else .ok (.real (.double (a.div b)))

/-- A power of finite doubles. The machine's routine answers a pole and an overflow with an infinity
and a result off the real line with NaN. -/
def power (a b : Double) : Except Fault Outcome :=
  match a.pow b with
  | .nan => .ok .complex
  | .infinity _ => .error (if a.isZero then .zeroDivision else .overflow)
  | r => .ok (.real (.double r))

/-- A remainder of finite doubles, which is not defined for a divisor of zero. -/
def remainder (a b : Double) : Except Fault Outcome :=
  match a.rem b with
  | .nan => .error .badValue
  | r => .ok (.real (.double r))

def operate : ArithOp → Number → Number → Except Fault Outcome
  | .add, .int i, .int j => .ok (.real (.int (i + j)))
  | .add, a, b => onDoubles (fun x y => .ok (.real (.double (x.add y)))) a b
  | .sub, .int i, .int j => .ok (.real (.int (i - j)))
  | .sub, a, b => onDoubles (fun x y => .ok (.real (.double (x.sub y)))) a b
  | .mul, .int i, .int j => .ok (.real (.int (i * j)))
  | .mul, a, b => onDoubles (fun x y => .ok (.real (.double (x.mul y)))) a b
  | .div, a, b => onDoubles quotient a b
  | .pow, .int i, .int j =>
    if 0 ≤ j ∧ j.natAbs ≤ ArithOp.exactPower then .ok (.real (.int (Int.pow i j.toNat)))
    else onDoubles power (.int i) (.int j)
  | .pow, a, b => onDoubles power a b
  | .rem, a, b => onDoubles remainder a b

/-- A double within bounds. -/
def boundedDouble (d : Double) : Except Fault Number :=
  if d.isFinite then
    if d.toInt?.any (·.natAbs ≤ safeBound) then Number.int <$> whole (.double d)
    else .ok (.double d)
  else .ok .zero

/-- An outcome within bounds: zero for a whole number without a double, and off the real line. -/
def bounded : Outcome → Except Fault Number
  | .complex => .ok .zero
  | .real (.double d) => boundedDouble d
  | .real (.int i) =>
    if i.natAbs ≤ safeBound then .ok (.int i)
    else
      match double (.int i) with
      | .ok d => boundedDouble d
      | .error .overflow => .ok .zero
      | .error fault => .error fault

/-- The double that a text writes, with blanks around it. -/
def numeral (s : String) : Except Fault Double :=
  match Numeral.double? (String.ofList (Text.trim Text.isBlank s.toList)) with
  | some d => .ok d
  | none => .error .badValue

def toNumber : Scalar → Except Fault Number
  | .bool b => .ok (.int (if b then 1 else 0))
  | .number n => bounded (.real n)
  | .text s =>
    match numeral s with
    | .ok d => boundedDouble d
    | .error .badValue => .ok .zero
    | .error fault => .error fault

def toCount (v : Scalar) : Except Fault Int := do
  let n ← toNumber v
  match n with
  | .int i => .ok i
  | .double d => if d.isFinite then whole (.double d) else .ok 0

def arith (op : ArithOp) (a b : Scalar) : Except Fault Number := do
  let x ← toNumber a
  let y ← toNumber b
  match operate op x y with
  | .ok r => bounded r
  | .error fault => if fault.isArithmetic then .ok .zero else .error fault

/-- How two values of one kind stand to each other. -/
def order (a b : Scalar) : Except Fault (Option Ordering) :=
  if a.sameKind b then .ok (a.compare? b) else .error .mixedKinds

def compare (op : CompareOp) (a b : Scalar) : Except Fault Bool :=
  if a.sameKind b then op.accepts <$> order a b else .ok (op = .ne)

/-- The bunny at a place. -/
def bunny (bunnies : List Bunny) (slot : Nat) : Except Fault Bunny :=
  match bunnies[slot]? with
  | some b => .ok b
  | none => .error (.noBunny slot)

def coord (b : Bunny) : Axis → Int
  | .x => b.x
  | .y => b.y

def eval (bunnies : List Bunny) (slot : Nat) : Expr → Except Fault Scalar
  | .literal v => .ok v
  | .coord axis =>
    if slot < bunnies.length then do
      let b ← bunny bunnies slot
      .ok (.int (coord b axis))
    else .ok (.int 0)
  | .var name =>
    if slot < bunnies.length then do
      let b ← bunny bunnies slot
      .ok (b.vars.get name)
    else .ok (.int 0)
  | .arith op l r => do
    let left ← eval bunnies slot l
    let right ← eval bunnies slot r
    let n ← arith op left right
    .ok (.number n)
  | .compare op l r => do
    let left ← eval bunnies slot l
    let right ← eval bunnies slot r
    let holds ← compare op left right
    .ok (.bool holds)
  | .logic op l r => do
    let left ← eval bunnies slot l
    let right ← eval bunnies slot r
    .ok (.bool (op.apply left.truthy right.truthy))
  | .not e => do
    let v ← eval bunnies slot e
    .ok (.bool !v.truthy)
  | .unknown _ => .ok (.int 0)

def amount (bunnies : List Bunny) (slot : Nat) : Amount → Except Fault Int
  | .plain n => .ok n
  | .expr e => do
    let v ← eval bunnies slot e
    toCount v

end Checked

section Finite

namespace Double

theorem bounded_of_not_isFinite {d : Double} (h : d.isFinite = false) : d.bounded = .zero := by
  unfold bounded
  rw [h]
  rfl

theorem div_not_isFinite {a b : Double} (ha : a.isFinite = true) (hb : b.isZero = true) :
    (a.div b).isFinite = false := by
  unfold isZero at hb
  split at hb
  · cases a with
    | finite s m fits =>
      simp only [div, if_true]
      split <;> rfl
    | nan | infinity => cases ha
  · cases hb

end Double

/-- A number whose double is finite. -/
def Number.IsFinite (n : Number) : Prop := n.toDouble.isFinite = true

theorem Number.IsNormal.isFinite {n : Number} (h : n.IsNormal) : n.IsFinite := by
  cases n with
  | int i =>
    show (Double.ofInt i).isFinite = true
    rw [Double.ofInt_exact (fits_whole h)]
    rfl
  | double d =>
    obtain ⟨u, hu, -⟩ := h
    cases d with
    | nan | infinity => cases hu
    | finite => rfl

theorem Scalar.toNumber_isFinite (v : Scalar) : v.toNumber.IsFinite := v.toNumber_isNormal.isFinite

end Finite

namespace Checked

section Arithmetic

variable {a b : Number} {d : Double}

theorem double_eq (h : a.IsFinite) : double a = .ok a.toDouble := by
  cases a with
  | int i => exact if_pos h
  | double d => rfl

theorem whole_eq (h : d.isFinite = true) : whole (.double d) = .ok (Number.double d).truncate := by
  cases d with
  | finite s m fits => rfl
  | nan | infinity => cases h

theorem boundedDouble_eq (d : Double) : boundedDouble d = .ok d.bounded := by
  unfold boundedDouble Double.bounded
  cases hd : d.isFinite with
  | false => rfl
  | true =>
    rw [if_pos rfl, if_pos rfl]
    cases hi : d.toInt? with
    | none => rfl
    | some i =>
      have hwhole : (Number.double d).truncate = i := by
        cases d with
        | nan | infinity => cases hd
        | finite s m fits =>
          rw [Double.toInt?] at hi
          split at hi
          · rw [Number.truncate, hi]
            rfl
          · cases hi
      rw [Option.any_some, whole_eq hd, hwhole]
      simp only [decide_eq_true_eq]
      split <;> rfl

theorem bounded_eq (n : Number) : bounded (.real n) = .ok n.bounded := by
  cases n with
  | double d => exact boundedDouble_eq d
  | int i =>
    rw [bounded, Number.bounded, double]
    split
    · rfl
    · cases hd : (Double.ofInt i).isFinite with
      | true => exact boundedDouble_eq _
      | false =>
        rw [Double.bounded_of_not_isFinite hd]
        rfl

theorem toNumber_eq (v : Scalar) : toNumber v = .ok v.toNumber := by
  cases v with
  | bool b => rfl
  | number n => exact bounded_eq n
  | text s =>
    rw [toNumber, numeral, Scalar.toNumber]
    cases Numeral.double? (String.ofList (Text.trim Text.isBlank s.toList)) with
    | none => rfl
    | some d => exact boundedDouble_eq d

theorem toCount_eq (v : Scalar) : toCount v = .ok v.toCount := by
  have hfinite := v.toNumber_isFinite
  unfold toCount Scalar.toCount
  rw [toNumber_eq]
  cases hn : v.toNumber with
  | int i => rfl
  | double d =>
    rw [hn] at hfinite
    have hd : d.isFinite = true := hfinite
    show (if d.isFinite then whole (.double d) else .ok 0) = _
    rw [if_pos hd]
    exact whole_eq hd

/-- A result as arithmetic takes it: bounded, and zero where it is missing. -/
def Gives (x : Except Fault Outcome) (n : Number) : Prop :=
  match x with
  | .ok r => bounded r = .ok n.bounded
  | .error fault => fault.isArithmetic = true ∧ n.bounded = .zero

theorem onDoubles_eq (ha : a.IsFinite) (hb : b.IsFinite)
    (f : Double → Double → Except Fault Outcome) :
    onDoubles f a b = f a.toDouble b.toDouble := by
  unfold onDoubles
  rw [double_eq ha, double_eq hb]
  rfl

theorem quotient_gives {x y : Double} (hx : x.isFinite = true) :
    Gives (quotient x y) (.double (x.div y)) := by
  unfold quotient
  split
  case isTrue hy => exact ⟨rfl, Double.bounded_of_not_isFinite (Double.div_not_isFinite hx hy)⟩
  case isFalse => exact bounded_eq _

theorem power_gives (x y : Double) : Gives (power x y) (.double (x.pow y)) := by
  unfold power
  cases hr : x.pow y with
  | nan => rfl
  | infinity s =>
    refine ⟨?_, rfl⟩
    split <;> rfl
  | finite s m fits => exact bounded_eq _

theorem remainder_gives (x y : Double) : Gives (remainder x y) (.double (x.rem y)) := by
  unfold remainder
  split
  case h_1 hr =>
    rw [hr]
    exact ⟨rfl, rfl⟩
  case h_2 => exact bounded_eq _

/-- An operator on finite numbers gives what arithmetic makes of it. -/
theorem operate_gives (op : ArithOp) (ha : a.IsFinite) (hb : b.IsFinite) :
    Gives (operate op a b) (op.raw a b) := by
  cases op with
  | add | sub | mul =>
    unfold operate ArithOp.raw
    cases a <;> cases b
    case int.int => exact bounded_eq _
    all_goals
      dsimp only
      rw [onDoubles_eq ha hb]
      exact bounded_eq _
  | div =>
    show Gives (onDoubles quotient a b) (.double (a.toDouble.div b.toDouble))
    rw [onDoubles_eq ha hb]
    exact quotient_gives ha
  | rem =>
    show Gives (onDoubles remainder a b) (.double (a.toDouble.rem b.toDouble))
    rw [onDoubles_eq ha hb]
    exact remainder_gives _ _
  | pow =>
    unfold operate ArithOp.raw
    cases a <;> cases b
    case int.int =>
      dsimp only
      split
      · exact bounded_eq _
      · rw [onDoubles_eq ha hb]
        exact power_gives _ _
    all_goals
      dsimp only
      rw [onDoubles_eq ha hb]
      exact power_gives _ _

/-- Arithmetic on values never fails. -/
theorem arith_eq (op : ArithOp) (l r : Scalar) : arith op l r = .ok (Scalar.arith op l r) := by
  have hgives := operate_gives op l.toNumber_isFinite r.toNumber_isFinite
  unfold arith Scalar.arith
  rw [toNumber_eq, toNumber_eq]
  show (match operate op l.toNumber r.toNumber with
    | .ok r => bounded r
    | .error fault => if fault.isArithmetic then .ok .zero else .error fault) = _
  cases ho : operate op l.toNumber r.toNumber with
  | ok outcome =>
    rw [ho] at hgives
    exact hgives
  | error fault =>
    rw [ho] at hgives
    obtain ⟨hfault, hzero⟩ := hgives
    rw [hzero]
    exact if_pos hfault

end Arithmetic

section Eval

variable {bunnies : List Bunny} {slot : Nat}

/-- Values of different kinds are never put in order. -/
theorem compare_eq (op : CompareOp) (l r : Scalar) : compare op l r = .ok (op.holds l r) := by
  unfold compare order CompareOp.holds
  cases hk : l.sameKind r with
  | true => rfl
  | false =>
    have hnone : l.compare? r = none := by
      unfold Scalar.sameKind at hk
      unfold Scalar.compare?
      split at hk <;> simp_all
    rw [hnone]
    cases op <;> rfl

theorem bunny_eq {b : Bunny} (h : bunnies[slot]? = some b) : bunny bunnies slot = .ok b := by
  unfold bunny
  rw [h]

/-- Evaluation never fails. -/
theorem eval_eq (bunnies : List Bunny) (slot : Nat) (e : Expr) :
    eval bunnies slot e = .ok (e.eval bunnies[slot]?) := by
  induction e with
  | literal | unknown => rfl
  | coord axis =>
    unfold eval
    cases hb : bunnies[slot]? with
    | none =>
      rw [if_neg (Nat.not_lt.mpr (List.getElem?_eq_none_iff.mp hb))]
      cases axis <;> rfl
    | some b =>
      rw [if_pos (List.getElem?_eq_some_iff.mp hb).1, bunny_eq hb]
      cases axis <;> rfl
  | var name =>
    unfold eval
    cases hb : bunnies[slot]? with
    | none =>
      rw [if_neg (Nat.not_lt.mpr (List.getElem?_eq_none_iff.mp hb))]
      rfl
    | some b =>
      rw [if_pos (List.getElem?_eq_some_iff.mp hb).1, bunny_eq hb]
      rfl
  | arith op l r ihl ihr =>
    unfold eval
    rw [ihl, ihr]
    show (arith op _ _ >>= fun n => Except.ok (Scalar.number n)) = _
    rw [arith_eq]
    rfl
  | compare op l r ihl ihr =>
    unfold eval
    rw [ihl, ihr]
    show (compare op _ _ >>= fun holds => Except.ok (Scalar.bool holds)) = _
    rw [compare_eq]
    rfl
  | logic op l r ihl ihr =>
    unfold eval
    rw [ihl, ihr]
    rfl
  | not e ih =>
    unfold eval
    rw [ih]
    rfl

theorem amount_eq (bunnies : List Bunny) (slot : Nat) (a : Amount) :
    amount bunnies slot a = .ok (a.eval bunnies[slot]?) := by
  cases a with
  | plain n => rfl
  | expr e =>
    rw [amount, eval_eq]
    exact toCount_eq _

end Eval

end Checked
end BunnyGrid
