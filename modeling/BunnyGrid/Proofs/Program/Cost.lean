import BunnyGrid.Program.Block

/-! What a program can cost, known before it runs: how many counts of the step limit its blocks and
the rounds of its loops can take. -/
namespace BunnyGrid

namespace Block

mutual

/-- The most counts that a block can take, its own among them. A loop whose rounds are only decided
in the run has no such number. -/
def cost? : Block → Option Nat
  | act _ => some 1
  | branch _ yes no => do
    let k ← costAll? yes
    let l ← costAll? no
    some (1 + max k l)
  | whileLoop .. => none
  | repeatLoop (.plain n) body => do
    let k ← costAll? body
    some (1 + n.toNat * (1 + k))
  | repeatLoop (.expr _) _ => none
  | unknown .. => some 1

def costAll? : List Block → Option Nat
  | [] => some 0
  | b :: rest => do
    let k ← cost? b
    let l ← costAll? rest
    some (k + l)

end

def isBranch : Block → Bool
  | branch .. => true
  | _ => false

def isLoop : Block → Bool
  | whileLoop .. => true
  | repeatLoop .. => true
  | _ => false

/-- Whether a block is a loop whose rounds are only decided in the run. -/
def isOpen : Block → Bool
  | whileLoop .. => true
  | repeatLoop (.expr _) _ => true
  | _ => false

mutual

/-- Whether neither a block nor any block inside it is of a sort. -/
def lacks (sort : Block → Bool) : Block → Bool
  | act action => !sort (act action)
  | branch condition yes no =>
    !sort (branch condition yes no) && (lacksAll sort yes && lacksAll sort no)
  | whileLoop condition body => !sort (whileLoop condition body) && lacksAll sort body
  | repeatLoop times body => !sort (repeatLoop times body) && lacksAll sort body
  | unknown kind raw => !sort (unknown kind raw)

def lacksAll (sort : Block → Bool) : List Block → Bool
  | [] => true
  | b :: rest => lacks sort b && lacksAll sort rest

end

section Cost

variable {yes no body rest : List Block} {condition : Expr} {b : Block} {k n : Nat} {times : Int}

theorem cost?_branch (h : cost? (branch condition yes no) = some n) :
    ∃ k l, costAll? yes = some k ∧ costAll? no = some l ∧ n = 1 + max k l := by
  rw [cost?] at h
  obtain ⟨k, hk, h⟩ := Option.bind_eq_some_iff.mp h
  obtain ⟨l, hl, h⟩ := Option.bind_eq_some_iff.mp h
  exact ⟨k, l, hk, hl, (Option.some.inj h).symm⟩

theorem cost?_repeat (h : cost? (repeatLoop (.plain times) body) = some n) :
    ∃ k, costAll? body = some k ∧ n = 1 + times.toNat * (1 + k) := by
  rw [cost?] at h
  obtain ⟨k, hk, h⟩ := Option.bind_eq_some_iff.mp h
  exact ⟨k, hk, (Option.some.inj h).symm⟩

theorem costAll?_cons (h : costAll? (b :: rest) = some n) :
    ∃ k l, cost? b = some k ∧ costAll? rest = some l ∧ n = k + l := by
  rw [costAll?] at h
  obtain ⟨k, hk, h⟩ := Option.bind_eq_some_iff.mp h
  obtain ⟨l, hl, h⟩ := Option.bind_eq_some_iff.mp h
  exact ⟨k, l, hk, hl, (Option.some.inj h).symm⟩

/-- Every block takes a count of its own. -/
theorem cost?_pos (h : cost? b = some n) : 1 ≤ n := by
  cases b with
  | act | unknown =>
    cases h
    exact Nat.le_refl 1
  | branch condition yes no =>
    obtain ⟨k, l, -, -, rfl⟩ := cost?_branch h
    exact Nat.le_add_right ..
  | whileLoop => cases h
  | repeatLoop times body =>
    cases times with
    | plain n =>
      obtain ⟨k, -, rfl⟩ := cost?_repeat h
      exact Nat.le_add_right ..
    | expr e => cases h

theorem lacksAll_eq_all (sort : Block → Bool) (bs : List Block) :
    lacksAll sort bs = bs.all (lacks sort) := by
  induction bs with
  | nil => rfl
  | cons b rest ih => rw [lacksAll, ih, List.all_cons]

mutual

theorem isSome_cost? (b : Block) : b.cost?.isSome = b.lacks isOpen := by
  cases b with
  | act | unknown | whileLoop => rfl
  | branch condition yes no =>
    rw [cost?, lacks, ← isSome_costAll? yes, ← isSome_costAll? no]
    cases costAll? yes with
    | none => rfl
    | some k => cases costAll? no <;> rfl
  | repeatLoop times body =>
    cases times with
    | plain n =>
      rw [cost?, lacks, ← isSome_costAll? body]
      cases costAll? body <;> rfl
    | expr e => rfl

/-- All blocks have a cost unless some loop is open. -/
theorem isSome_costAll? (bs : List Block) : (costAll? bs).isSome = lacksAll isOpen bs := by
  cases bs with
  | nil => rfl
  | cons b rest =>
    rw [costAll?, lacksAll, ← isSome_cost? b, ← isSome_costAll? rest]
    cases cost? b with
    | none => rfl
    | some k => cases costAll? rest <;> rfl

end

mutual

theorem cost?_le_count (b : Block) (h : b.lacks isLoop = true) :
    ∃ k, b.cost? = some k ∧ k ≤ b.count := by
  cases b with
  | act | unknown => exact ⟨1, rfl, Nat.le_refl 1⟩
  | branch condition yes no =>
    obtain ⟨hyes, hno⟩ := Bool.and_eq_true_iff.mp h
    obtain ⟨k, hk, hle⟩ := costAll?_le_count yes hyes
    obtain ⟨l, hl, hle'⟩ := costAll?_le_count no hno
    refine ⟨1 + max k l, by rw [cost?, hk, hl]; rfl, ?_⟩
    rw [count]
    omega
  | whileLoop | repeatLoop => cases h

/-- Without loops no block is counted more than once. -/
theorem costAll?_le_count (bs : List Block) (h : lacksAll isLoop bs = true) :
    ∃ k, costAll? bs = some k ∧ k ≤ countAll bs := by
  cases bs with
  | nil => exact ⟨0, rfl, Nat.le_refl 0⟩
  | cons b rest =>
    obtain ⟨hb, hrest⟩ := Bool.and_eq_true_iff.mp h
    obtain ⟨k, hk, hle⟩ := cost?_le_count b hb
    obtain ⟨l, hl, hle'⟩ := costAll?_le_count rest hrest
    exact ⟨k + l, by rw [costAll?, hk, hl]; rfl, Nat.add_le_add hle hle'⟩

end

end Cost

end Block

namespace Program

/-- The most counts that a program can take. -/
def cost? (p : Program) : Option Nat := Block.costAll? p

/-- Whether a program has no block of a sort, not even inside others. -/
def lacks (sort : Block → Bool) (p : Program) : Bool := Block.lacksAll sort p

end Program
end BunnyGrid
