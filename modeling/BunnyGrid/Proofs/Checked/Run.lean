import BunnyGrid.Proofs.Checked.Play
import BunnyGrid.Proofs.Play.Turns
import BunnyGrid.Proofs.Play.Actors
import BunnyGrid.Session.Basic

/-! Runs in which every lookup of a bunny or a block is checked, for one bunny, for two by turns and
step by step. With its bunnies on the map no run fails. -/
namespace BunnyGrid

namespace Play.Checked

/-- The block at an index of a program. -/
def block (program : Program) (index : Nat) : Except Fault Block :=
  match program[index]? with
  | some b => .ok b
  | none => .error (.noBlock index)

/-- Whether a task has no block left or its bunny has to stop. -/
def isDone (t : Task) (p : Play) : Except Fault Bool :=
  if t.isExhausted then .ok true else halted p t.who.slot

def settle (t : Task) (p : Play) : Except Fault Task := do
  let done ← isDone t p
  .ok (if done then { t with finished := true } else t)

def stepTask (rules : Rules) (t : Task) (p : Play) : Except Fault (Task × Play) :=
  if t.finished then .ok (t, p)
  else do
    let done ← isDone t p
    if done then .ok ({ t with finished := true }, p)
    else
      let b ← block t.program t.cursor
      let counted := p.tick rules
      let p ← if counted.2 then exec rules t.who.slot b counted.1 else .ok counted.1
      let t ← settle { t with cursor := t.cursor + 1 } p
      .ok (t, p)

def alternate (rules : Rules) : Nat → Task → Task → Play → Except Fault Play
  | 0, _, _, p => .ok p
  | n + 1, a, b, p =>
    if (a.finished && b.finished) || p.world.ended then .ok p
    else do
      let (a, p) ← stepTask rules a p
      let (b, p) ← stepTask rules b p
      alternate rules n a b p

def runPair (rules : Rules) (first second : Program) (p : Play) : Except Fault Play :=
  alternate rules (first.length + second.length + 1)
    { who := .ofSlot 0, program := first } { who := .ofSlot 1, program := second } p

def runToEnd (rules : Rules) (first second : Program) (p : Play) : Except Fault Play := do
  let p := p.start
  let p ←
    if p.world.bunnies.length = 1 then execAll rules 0 first p
    else runPair rules first second p
  .ok p.finish

def run (rules : Rules) (first second : Program) (p : Play) : Except Fault (Play × RunResult) :=
  let ignores := p.world.bunnies.length = 1 ∧ !second.isEmpty
  let p := if ignores then p.note .secondIgnored else p
  let second := if ignores then [] else second
  if first.isEmpty && second.isEmpty then
    .ok (p, { p.result with status := .emptyProgram, message := "Build a program first" })
  else do
    let p ← if p.world.ended then .ok p else runToEnd rules first second p
    let p := p.note (.runFinished p.world.status p.world.steps)
    .ok (p, p.result)

def runStep (rules : Rules) (p : Play) (program : Program) (index : Int) :
    Except Fault (Play × Option Int) :=
  if p.world.ended then .ok (p, none)
  else if 0 ≤ index ∧ index < program.length then do
    let b ← block program index.toNat
    let p := if p.world.status = .idle then p.setStatus .running else p
    match b with
    | .act action =>
      let p ← exec rules 0 (.act action) p
      .ok (p, some (index + 1))
    | b => .ok (p.note (.stepSkips b.typeName), some (index + 1))
  else .ok (p, none)

/-- Complete a run that has no step left, and tell the score of the first bunny. -/
def completeStep (p : Play) : Except Fault Play :=
  if p.world.status = .idle ∨ p.world.status = .running then do
    let b ← bunny p 0
    .ok ((p.setStatus .completed).setMessage s!"Done! Score: {b.score}")
  else .ok p

section Agrees

variable {rules : Rules} {p : Play} {slot : Nat}

theorem block_eq {program : Program} {index : Nat} {b : Block} (h : program[index]? = some b) :
    block program index = .ok b := by
  unfold block
  rw [h]

theorem isDone_eq {t : Task} (hwho : t.who = .ofSlot slot) (h : Has p slot) :
    isDone t p = .ok (t.isExhausted || p.halted t.who) := by
  unfold isDone
  cases t.isExhausted with
  | true => rfl
  | false =>
    rw [hwho]
    exact halted_eq h

theorem settle_eq {t : Task} (hwho : t.who = .ofSlot slot) (h : Has p slot) :
    settle t p = .ok (t.settle p) := by
  unfold settle Task.settle
  rw [isDone_eq hwho h]
  rfl

/-- A step of a task whose bunny is there never fails. -/
theorem stepTask_eq {t : Task} (hwho : t.who = .ofSlot slot) (h : Has p slot) :
    stepTask rules t p = .ok (t.step rules p) := by
  unfold stepTask Task.step
  split
  case isTrue => rfl
  case isFalse =>
    rw [isDone_eq hwho h, ok_bind]
    cases hb : t.program[t.cursor]? with
    | none =>
      have hend : t.isExhausted = true :=
        decide_eq_true (List.getElem?_eq_none_iff.mp hb)
      rw [hend]
      simp
    | some b =>
      have hleft : t.isExhausted = false :=
        decide_eq_false (Nat.not_le.mpr (List.getElem?_eq_some_iff.mp hb).1)
      rw [hleft, Bool.false_or]
      cases hh : p.halted t.who with
      | true => rfl
      | false =>
        let next : Task := { t with cursor := t.cursor + 1 }
        have hnext : next.who = .ofSlot slot := hwho
        have hcount : Changes rules t.who p (p.tick rules).1 := .single (.tick hh)
        simp only [Bool.false_eq_true, if_false]
        rw [block_eq hb, ok_bind]
        rcases ht : p.tick rules with ⟨q, _ | _⟩
        · rw [ht] at hcount
          have hq : Has q slot := h.changes hcount
          show (settle next q >>= fun t => Except.ok (t, q)) = _
          rw [settle_eq hnext hq]
          rfl
        · rw [ht] at hcount
          have hq : Has q slot := h.changes hcount
          have hr : Has (Play.exec rules (.ofSlot slot) b q) slot :=
            hq.changes (exec_runs b q).changes
          have hexec : exec rules t.who.slot b q = .ok (Play.exec rules t.who b q) := by
            rw [hwho]
            exact exec_eq b hq
          show (exec rules t.who.slot b q >>= fun p =>
            settle next p >>= fun t => Except.ok (t, p)) = _
          rw [hexec, ok_bind, settle_eq hnext (hwho ▸ hr)]
          rfl

/-- Two bunnies that are there play by turns, and nothing fails. -/
theorem alternate_eq (n : Nat) {a b : Task} (ha : a.who = .ofSlot 0) (hb : b.who = .ofSlot 1)
    (h : Has p 1) : alternate rules n a b p = .ok (Task.alternate rules n a b p) := by
  induction n generalizing a b p with
  | zero => rfl
  | succ n ih =>
    have hfirst : Has p 0 := Nat.lt_of_succ_lt h
    have hma := Task.step_moves rules a p
    have hmb := Task.step_moves rules b (a.step rules p).2
    have hq : Has (a.step rules p).2 1 := h.changes hma.changes
    have hr : Has (b.step rules (a.step rules p).2).2 1 := hq.changes hmb.changes
    rw [alternate, Task.alternate]
    split
    · rfl
    · rw [stepTask_eq ha hfirst, ok_bind]
      dsimp only
      rw [stepTask_eq hb hq, ok_bind]
      exact ih (hma.who.trans ha) (hmb.who.trans hb) hr

theorem runPair_eq (first second : Program) (h : Has p 1) :
    runPair rules first second p = .ok (p.runPair rules first second) := alternate_eq _ rfl rfl h

theorem runToEnd_eq (first second : Program) (h : Has p 0) :
    runToEnd rules first second p = .ok (p.runToEnd rules first second) := by
  have hstart : Has p.start 0 := h
  unfold runToEnd Play.runToEnd
  dsimp only
  split
  case isTrue =>
    rw [execAll_eq first hstart]
    rfl
  case isFalse hn =>
    have hsecond : Has p.start 1 := by
      have hpos : 0 < p.start.world.bunnies.length := hstart
      show 1 < p.start.world.bunnies.length
      omega
    rw [runPair_eq first second hsecond]
    rfl

/-- A run with a bunny on the map never fails. -/
theorem run_eq (first second : Program) (h : Has p 0) :
    run rules first second p = .ok (p.run rules first second) := by
  unfold run Play.run
  dsimp only
  generalize hp' : (if p.world.bunnies.length = 1 ∧ (!second.isEmpty) = true then
    p.note .secondIgnored else p) = p'
  generalize (if p.world.bunnies.length = 1 ∧ (!second.isEmpty) = true then [] else second) =
    second'
  have h' : Has p' 0 := by
    rw [← hp']
    split <;> exact h
  cases first.isEmpty && List.isEmpty second' with
  | true => rfl
  | false =>
    simp only [Bool.false_eq_true, if_false]
    cases p'.world.ended with
    | true => rfl
    | false =>
      rw [if_neg Bool.false_ne_true, runToEnd_eq _ _ h']
      rfl

/-- A single step with a bunny on the map never fails. -/
theorem runStep_eq (program : Program) (index : Int) (h : Has p 0) :
    runStep rules p program index = .ok (p.runStep rules program index) := by
  unfold runStep Play.runStep
  cases hover : p.world.ended with
  | true => rfl
  | false =>
    simp only [Bool.false_eq_true, if_false, false_or]
    by_cases hindex : 0 ≤ index ∧ index < program.length
    · have hlt : index.toNat < program.length := by omega
      have hb : program[index.toNat]? = some program[index.toNat] :=
        List.getElem?_eq_getElem hlt
      let q := if p.world.status = .idle then p.setStatus .running else p
      have hq : Has q 0 := by
        unfold q
        split <;> exact h
      rw [if_pos hindex, if_neg (Int.not_lt.mpr hindex.1), block_eq hb, ok_bind, hb]
      dsimp only
      cases program[index.toNat] with
      | act action =>
        dsimp only
        rw [exec_eq (.act action) hq]
        rfl
      | branch | whileLoop | repeatLoop | unknown => rfl
    · rw [if_neg hindex]
      have hnone : (if index < 0 then none else program[index.toNat]?) = none := by
        split
        · rfl
        · rw [List.getElem?_eq_none_iff]
          omega
      rw [hnone]

theorem completeStep_eq (h : Has p 0) :
    completeStep p = .ok (Session.completeStep p) := by
  obtain ⟨b, hb⟩ := h.exists_bunny
  have hscore : (p.world.bunnies.map (·.score)).headD 0 = b.score := by
    have hfirst : p.world.bunnies[0]? = some b := hb
    rw [List.headD_eq_head?_getD, List.head?_map, List.head?_eq_getElem?, hfirst]
    rfl
  unfold completeStep Session.completeStep
  rw [bunny_eq hb, hscore]
  split <;> rfl

end Agrees

end Play.Checked
end BunnyGrid
