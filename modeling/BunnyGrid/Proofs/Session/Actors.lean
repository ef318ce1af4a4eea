import BunnyGrid.Proofs.Session.Operation

/-! Which bunnies an operation lets act: the one that it names, and those of a run. -/
namespace BunnyGrid

theorem Actor.ofIndex?_label {count : Nat} {index : Int} {who : Actor}
    (h : Actor.ofIndex? count index = some who) :
    who.label = index ∧ (0 ≤ index → who.isDirect = true) := by
  unfold ofIndex? at h
  split at h
  case isTrue hi =>
    split at h
    · cases h
      exact ⟨rfl, fun _ => decide_eq_true (Int.toNat_of_nonneg hi).symm⟩
    · cases h
  case isFalse hi =>
    split at h
    · cases h
      exact ⟨rfl, fun h => absurd h hi⟩
    · cases h

namespace Session

/-- Whether an operation goes on from where the world stands: it loads nothing, puts nothing back
and writes no score. -/
def Operation.goesOn : Operation → Bool
  | .load _ | .install _ | .reset | .resetWorld | .run .. | .setScore .. => false
  | _ => true

/-- The index by which an operation names a bunny. -/
def Operation.index? : Operation → Option Int
  | .runBlocks index _ | .turn index _ | .jump index _ _ | .setScore index _ => some index
  | .stepTask t => some t.index
  | _ => none

/-- Whether all bunnies that an operation can name may act. -/
def Operation.Allowed (may : Actor → Prop) (op : Operation) : Prop :=
  ∀ index, op.index? = some index → ∀ count who, Actor.ofIndex? count index = some who → may who

/-- Something is played on a stage by bunnies that may act. -/
def PlayedBy (may : Actor → Prop) (rules : Rules) (stage stage' : Stage) : Prop :=
  ∃ q, Play.StepsBy rules may stage.toPlay q ∧ stage' = stage.after q

section Played

variable {rules : Rules} {may : Actor → Prop} {s : Session} {stage stage' stage'' : Stage}
  (hslot : ∀ slot, may (.ofSlot slot))

theorem PlayedBy.refl (may : Actor → Prop) (rules : Rules) (stage : Stage) :
    PlayedBy may rules stage stage := ⟨stage.toPlay, .refl, rfl⟩

include hslot

theorem PlayedBy.trans (h : PlayedBy may rules stage stage')
    (h' : PlayedBy may rules stage' stage'') : PlayedBy may rules stage stage'' := by
  obtain ⟨q, hq, rfl⟩ := h
  obtain ⟨r, hr, rfl⟩ := h'
  have hsame : Play.Same q (stage.after q).toPlay := ⟨rfl, rfl⟩
  exact ⟨r, hq.trans ((hsame.stepsBy hslot).trans hr), rfl⟩

omit hslot in
theorem perform_playedBy {α : Type} {missing : α} {f : Play → Play × α}
    (hf : ∀ stage, s.stage = some stage →
      Play.StepsBy s.rules may stage.toPlay (f stage.toPlay).1) :
    s.Along (PlayedBy may) (s.perform missing f).session :=
  perform_along fun stage hs => ⟨_, hf stage hs, rfl⟩

omit hslot in
theorem completeStep_stepsBy (p : Play) : Play.StepsBy rules may p (completeStep p) := by
  unfold completeStep
  split
  · exact .single (.finish ‹_› _)
  · exact .refl

theorem nextStep_playedBy (s : Session) (plan : List Action) :
    s.Along (PlayedBy may) (s.nextStep plan).session := by
  let ran := s.runStep (plan.map .act) s.cursor
  have hran : s.Along (PlayedBy may) ran.session :=
    perform_playedBy fun _ _ => Play.runStep_stepsBy hslot s.rules _ _ _
  let cursor := (ran.value.map Int.toNat).getD s.cursor
  let ends := ran.value.isNone || plan.length ≤ cursor
  let complete (p : Play) : Play × RunResult :=
    let p := if ends then completeStep p else p
    (p, p.result)
  let between : Session := { ran.session with cursor }
  have hcomplete (p : Play) : Play.StepsBy between.rules may p (complete p).1 := by
    unfold complete
    dsimp only
    split
    · exact completeStep_stepsBy p
    · exact .refl
  have hlast : between.Along (PlayedBy may) (between.perform noMapResult complete).session :=
    perform_playedBy fun stage _ => hcomplete stage.toPlay
  exact Along.trans (PlayedBy.trans hslot) hran hlast

theorem step_playedBy (s : Session) (program : Program) :
    s.Along (PlayedBy may) (s.step program).session := by
  unfold step
  split
  · exact .of_eq (PlayedBy.refl may) rfl rfl
  · split
    dsimp only
    split
    · exact .of_eq (PlayedBy.refl may) rfl rfl
    · exact nextStep_playedBy hslot { s with plan := some _ } _

omit hslot in
/-- A bunny that may not be named does not move. -/
theorem mover_playedBy {f : Play → Actor → Play × Bool} {index : Int}
    (hindex : ∀ count who, Actor.ofIndex? count index = some who → may who)
    (hf : ∀ p who, may who → Play.StepsBy s.rules may p (f p who).1)
    (hstop : ∀ p who, p.canAct who = false → (f p who).1 = p) :
    s.Along (PlayedBy may) (s.perform false fun p => f p (s.mover index)).session := by
  refine perform_playedBy fun stage hs => ?_
  unfold mover actor?
  rw [hs]
  dsimp only
  cases hwho : Actor.ofIndex? stage.world.bunnies.length index with
  | none =>
    have hno : stage.toPlay.canAct ⟨0, -1⟩ = false := by simp [Play.canAct, Actor.isDirect]
    have hkept : (f stage.toPlay ⟨0, -1⟩).1 = stage.toPlay := hstop _ _ hno
    show Play.StepsBy s.rules may stage.toPlay (f stage.toPlay ⟨0, -1⟩).1
    rw [hkept]
  | some who => exact hf _ who (hindex _ who hwho)

omit hslot in
theorem Operation.Allowed.actor {op : Operation} {index : Int} {who : Actor}
    (hmay : op.Allowed may) (hindex : op.index? = some index) (hwho : s.actor? index = .ok who) :
    may who := by
  unfold actor? at hwho
  split at hwho
  · cases hwho
  · split at hwho
    · cases hwho
      exact hmay index hindex _ _ ‹_›
    · cases hwho

/-- An operation that goes on is played by the bunnies that it may name. -/
theorem apply_playedBy (s : Session) {op : Operation} (hop : op.goesOn = true)
    (hmay : op.Allowed may) : s.Along (PlayedBy may) (s.apply op) := by
  have hkept : s.Along (PlayedBy may) s := .of_eq (PlayedBy.refl may) rfl rfl
  cases op with
  | load | install | reset | resetWorld | run | setScore => cases hop
  | step program => exact step_playedBy hslot s program
  | continueWith first second =>
    exact perform_playedBy fun _ _ => Play.run_stepsBy hslot s.rules first second _
  | runStep program index =>
    exact perform_playedBy fun _ _ => Play.runStep_stepsBy hslot s.rules _ program index
  | runBlocks index program =>
    simp only [apply, runBlocks]
    split
    · exact hkept
    · cases hwho : s.actor? index with
      | error e => exact hkept
      | ok who =>
        refine perform_playedBy fun stage _ => ?_
        have hchanges : Play.Changes s.rules who stage.toPlay _ :=
          (Play.execAll_runs program stage.toPlay).changes
        exact hchanges.stepsBy (hmay.actor rfl hwho)
  | stepTask t =>
    simp only [apply, stepTask]
    split
    · exact hkept
    split
    · exact hkept
    split
    · exact hkept
    · cases hwho : s.actor? t.index with
      | error e => exact hkept
      | ok who =>
        refine perform_playedBy fun stage _ => ?_
        let task : Task := { who, program := t.program, cursor := t.cursor, finished := t.finished }
        have hchanges := (Task.step_moves s.rules task stage.toPlay).changes
        exact hchanges.stepsBy (hmay.actor rfl hwho)
  | turn index t =>
    refine mover_playedBy (f := fun p who => p.turn who t) (hmay index rfl) ?_ ?_
    · intro p who hwho
      exact (Play.turn_change s.rules p who t).stepsBy hwho
    · intro p who h
      simp [Play.turn, h]
  | jump index kind amount =>
    refine mover_playedBy (f := fun p who => p.jump s.rules who kind amount) (hmay index rfl) ?_ ?_
    · intro p who hwho
      exact (Play.jump_changes s.rules p who kind amount).stepsBy hwho
    · intro p who h
      simp [Play.jump, h]

/-- Operations that go on are played by the bunnies that they may name. -/
theorem applyAll_playedBy (s : Session) (ops : List Operation)
    (hgo : ∀ op ∈ ops, op.goesOn = true) (hmay : ∀ op ∈ ops, op.Allowed may) :
    s.Along (PlayedBy may) (s.applyAll ops) := by
  induction ops generalizing s with
  | nil => exact .of_eq (PlayedBy.refl may) rfl rfl
  | cons op ops ih =>
    have hfirst := apply_playedBy hslot s (hgo op (.head _)) (hmay op (.head _))
    have hrest := ih (s.apply op) (fun op h => hgo op (.tail _ h)) fun op h => hmay op (.tail _ h)
    exact Along.trans (PlayedBy.trans hslot) hfirst hrest

end Played

end Session
end BunnyGrid
