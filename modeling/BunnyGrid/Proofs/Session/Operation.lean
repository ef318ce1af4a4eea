import BunnyGrid.Session.Basic
import BunnyGrid.Proofs.Play.Actors

/-! Everything that can be done to a session, and how its stage moves along while it plays. -/
namespace BunnyGrid

/-- A bunny turns for ever. -/
def Program.spin : Program := [.whileLoop (.literal (.bool true)) [.act (.turn .right)]]

namespace Session

/-- One operation on a session. -/
inductive Operation
  | load (d : Data)
  | install (board : Board)
  | reset
  | resetWorld
  | run (first second : Program)
  | step (program : Program)
  | continueWith (first second : Program)
  | runStep (program : Program) (index : Int)
  | runBlocks (index : Int) (program : Program)
  | stepTask (t : Turns)
  | turn (index : Int) (t : Turn)
  | jump (index : Int) (kind : Jump) (amount : Int)
  | setScore (index score : Int)

/-- Whether an operation neither loads a board nor writes a score. -/
def Operation.plays : Operation → Bool
  | .load _ | .install _ | .setScore .. => false
  | _ => true

/-- The session of a reply, or the one that was left as it was. -/
def kept {ε α : Type} (s : Session) : Except ε (Reply α) → Session
  | .ok reply => reply.session
  | .error _ => s

/-- A session after an operation; one that cannot start changes nothing. -/
def apply (s : Session) : Operation → Session
  | .load d => s.kept (s.load d)
  | .install board => (s.loadBoard board).session
  | .reset => s.reset
  | .resetWorld => s.resetWorld
  | .run first second => (s.run first second).session
  | .step program => (s.step program).session
  | .continueWith first second => (s.continueWith first second).session
  | .runStep program index => (s.runStep program index).session
  | .runBlocks index program => s.kept (s.runBlocks index program)
  | .stepTask t => s.kept (s.stepTask t)
  | .turn index t => (s.turn index t).session
  | .jump index kind amount => (s.jump index kind amount).session
  | .setScore index score =>
    match s.setScore index score with
    | .ok s => s
    | .error _ => s

/-- A session after operations in order. -/
def applyAll (s : Session) (ops : List Operation) : Session := ops.foldl apply s

/-- A new session after operations in order. -/
def after (rules : Rules) (history : List Operation) : Session := applyAll { rules } history

section Along

variable {α : Type} {R R' : Rules → Stage → Stage → Prop} {s s' s'' : Session} {missing : α}
  {f : Play → Play × α}

/-- Between two sessions by the same rules the stage moves on by a relation, and where there is none
there stays none. -/
abbrev Along (R : Rules → Stage → Stage → Prop) (s s' : Session) : Prop :=
  s'.rules = s.rules ∧ Option.Rel (R s.rules) s.stage s'.stage

theorem Along.of_eq (hrefl : ∀ rules stage, R rules stage stage) (hr : s'.rules = s.rules)
    (hs : s'.stage = s.stage) : Along R s s' := by
  refine ⟨hr, ?_⟩
  rw [hs]
  cases s.stage with
  | none => exact .none
  | some stage => exact .some (hrefl s.rules stage)

theorem Along.trans
    (htrans : ∀ {rules a b c}, R rules a b → R rules b c → R rules a c)
    (h : Along R s s') (h' : Along R s' s'') : Along R s s'' := by
  obtain ⟨hr, hs⟩ := h
  obtain ⟨hr', hs'⟩ := h'
  refine ⟨hr'.trans hr, ?_⟩
  rw [hr] at hs'
  generalize s.stage = a, s'.stage = b, s''.stage = c at hs hs'
  cases hs with
  | none => exact hs'
  | some h =>
    cases hs' with
    | some h' => exact .some (htrans h h')

theorem Along.mono (hsub : ∀ rules a b, R rules a b → R' rules a b) (h : Along R s s') :
    Along R' s s' := by
  obtain ⟨hr, hs⟩ := h
  refine ⟨hr, ?_⟩
  generalize s.stage = a, s'.stage = b at hs
  cases hs with
  | none => exact .none
  | some h => exact .some (hsub _ _ _ h)

theorem Along.exists_after {stage : Stage} (h : Along R s s') (hs : s.stage = some stage) :
    ∃ stage', s'.stage = some stage' ∧ R s.rules stage stage' := by
  have hn := h.2
  rw [hs] at hn
  generalize s'.stage = after at hn
  cases hn with
  | some hn => exact ⟨_, rfl, hn⟩

theorem Along.exists_before {stage' : Stage} (h : Along R s s') (hs : s'.stage = some stage') :
    ∃ stage, s.stage = some stage ∧ R s.rules stage stage' := by
  have hn := h.2
  rw [hs] at hn
  generalize s.stage = before at hn
  cases hn with
  | some hn => exact ⟨_, rfl, hn⟩

theorem perform_along (hf : ∀ stage, s.stage = some stage →
    R s.rules stage (stage.after (f stage.toPlay).1)) :
    Along R s (s.perform missing f).session := by
  unfold perform
  cases hs : s.stage with
  | none =>
    refine ⟨rfl, ?_⟩
    rw [hs]
    exact .none
  | some stage =>
    refine ⟨rfl, ?_⟩
    rw [hs]
    exact .some (hf stage hs)

end Along

end Session
end BunnyGrid
