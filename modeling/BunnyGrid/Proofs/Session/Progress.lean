import BunnyGrid.Proofs.Session.Actors

/-! Between loads a session only plays and puts its stage back, so what these two keep holds after
every history. -/
namespace BunnyGrid

namespace Stage

/-- One step of a stage: it is put back, or something is played on it. -/
inductive Next (rules : Rules) (s : Stage) : Stage → Prop
  | reset : Next rules s s.reset
  | play {q} (h : Play.Steps rules s.toPlay q) : Next rules s (s.after q)

/-- A chain of steps of a stage. -/
abbrev Nexts (rules : Rules) : Stage → Stage → Prop := Relation.ReflTransGen (Next rules)

theorem Nexts.kept {rules : Rules} {s s' : Stage} {I : Stage → Prop} (h : Nexts rules s s')
    (hreset : ∀ s, I s → I s.reset)
    (hplay : ∀ s q, Play.Steps rules s.toPlay q → I s → I (s.after q)) (hs : I s) : I s' := by
  induction h with
  | refl => exact hs
  | tail _ hn ih =>
    cases hn with
    | reset => exact hreset _ ih
    | play hp => exact hplay _ _ hp ih

end Stage

namespace Session

section Leads

/-- Without a load the stage moves on by steps, and where there is none there stays none. -/
abbrev Leads (s s' : Session) : Prop :=
  s'.rules = s.rules ∧ Option.Rel (Stage.Nexts s.rules) s.stage s'.stage

variable {s s' s'' : Session}

theorem Leads.refl (s : Session) : s.Leads s := Along.of_eq (fun _ _ => .refl) rfl rfl

theorem Leads.trans (h : s.Leads s') (h' : s'.Leads s'') : s.Leads s'' :=
  Along.trans (R := Stage.Nexts) (fun h h' => Relation.ReflTransGen.trans h h') h h'

theorem Leads.exists_after {stage : Stage} (h : s.Leads s') (hs : s.stage = some stage) :
    ∃ stage', s'.stage = some stage' ∧ Stage.Nexts s.rules stage stage' :=
  Along.exists_after (R := Stage.Nexts) h hs

theorem Leads.exists_before {stage' : Stage} (h : s.Leads s') (hs : s'.stage = some stage') :
    ∃ stage, s.stage = some stage ∧ Stage.Nexts s.rules stage stage' :=
  Along.exists_before (R := Stage.Nexts) h hs

theorem resetWorld_leads (s : Session) : s.Leads s.resetWorld := by
  refine ⟨rfl, ?_⟩
  cases hs : s.stage with
  | none => simp [resetWorld, hs]
  | some stage =>
    simp only [resetWorld, hs]
    exact .some (.single .reset)

theorem reset_leads (s : Session) : s.Leads s.reset := resetWorld_leads s

/-- What goes on is played. -/
theorem apply_leads_of_goesOn (s : Session) {op : Operation} (hgo : op.goesOn = true) :
    s.Leads (s.apply op) := by
  have hany : op.Allowed Play.Anyone := fun _ _ _ _ _ => trivial
  refine Along.mono ?_ (apply_playedBy Play.anyone s hgo hany)
  rintro rules stage stage' ⟨q, hq, rfl⟩
  exact .single (.play hq.steps)

theorem step_leads (s : Session) (program : Program) : s.Leads (s.step program).session :=
  apply_leads_of_goesOn s (rfl : (Operation.step program).goesOn = true)

theorem runStep_leads (s : Session) (program : Program) (index : Int) :
    s.Leads (s.runStep program index).session :=
  apply_leads_of_goesOn s (rfl : (Operation.runStep program index).goesOn = true)

theorem continueWith_leads (s : Session) (first second : Program) :
    s.Leads (s.continueWith first second).session :=
  apply_leads_of_goesOn s (rfl : (Operation.continueWith first second).goesOn = true)

theorem run_leads (s : Session) (first second : Program) :
    s.Leads (s.run first second).session := by
  unfold run
  split
  · exact .refl s
  · exact (reset_leads s).trans (continueWith_leads s.reset first second)

/-- Every operation but a load or a written score leads a session on. -/
theorem apply_leads (s : Session) {op : Operation} (hop : op.plays = true) :
    s.Leads (s.apply op) := by
  by_cases hgo : op.goesOn = true
  · exact apply_leads_of_goesOn s hgo
  · cases op with
    | load | install | setScore => cases hop
    | reset => exact reset_leads s
    | resetWorld => exact resetWorld_leads s
    | run first second => exact run_leads s first second
    | _ => exact absurd rfl hgo

theorem setScore_cases {s s' : Session} {index score : Int} (h : s.setScore index score = .ok s') :
    ∃ stage slot, s.stage = some stage ∧ s' = { s with stage := some { stage with
      world := stage.world.mapBunny slot fun b => { b with score } } } := by
  unfold setScore actor? at h
  cases hs : s.stage with
  | none =>
    rw [hs] at h
    cases h
  | some stage =>
    rw [hs] at h
    dsimp only at h
    split at h
    · unfold perform at h
      rw [hs] at h
      cases h
      exact ⟨stage, _, rfl, rfl⟩
    · cases h

/-- An operation leads a session on, loads a board or writes a score. -/
theorem apply_cases (s : Session) (op : Operation) : s.Leads (s.apply op) ∨
    (∃ board, s.apply op = (s.loadBoard board).session) ∨
    ∃ stage slot score, s.stage = some stage ∧ s.apply op = { s with stage := some { stage with
      world := stage.world.mapBunny slot fun b => { b with score } } } := by
  by_cases hop : op.plays = true
  · exact .inl (apply_leads s hop)
  · cases op with
    | load d =>
      simp only [apply, load]
      cases Board.ofData d with
      | error e => exact .inl (.refl s)
      | ok board => exact .inr (.inl ⟨board, rfl⟩)
    | install board => exact .inr (.inl ⟨board, rfl⟩)
    | setScore index score =>
      simp only [apply]
      split
      case h_1 h =>
        obtain ⟨stage, slot, hs, rfl⟩ := setScore_cases h
        exact .inr (.inr ⟨stage, slot, score, hs, rfl⟩)
      case h_2 => exact .inl (.refl s)
    | _ => exact absurd rfl hop

theorem apply_rules (s : Session) (op : Operation) : (s.apply op).rules = s.rules := by
  rcases apply_cases s op with h | ⟨board, h⟩ | ⟨stage, slot, score, hs, h⟩
  · exact h.1
  · rw [h]
    rfl
  · rw [h]

theorem applyAll_rules (s : Session) (ops : List Operation) : (s.applyAll ops).rules = s.rules := by
  induction ops generalizing s with
  | nil => rfl
  | cons op ops ih => exact (ih _).trans (apply_rules s op)

@[simp] theorem after_rules (rules : Rules) (history : List Operation) :
    (after rules history).rules = rules := applyAll_rules _ history

theorem applyAll_leads (s : Session) (ops : List Operation) (hops : ∀ op ∈ ops, op.plays = true) :
    s.Leads (s.applyAll ops) := by
  induction ops generalizing s with
  | nil => exact .refl s
  | cons op ops ih =>
    have hop := apply_leads s (hops op (.head _))
    exact hop.trans (ih _ fun op h => hops op (.tail _ h))

end Leads

section Kept

variable {rules : Rules} {I : Stage → Prop} (hnew : ∀ board, I (.ofBoard board))
  (hplay : ∀ s q, Play.Steps rules s.toPlay q → I s → I (s.after q))
  (hscore : ∀ (s : Stage) slot score, I s →
    I { s with world := s.world.mapBunny slot fun b => { b with score } })

include hnew hplay hscore

/-- What every fresh stage has, and what plays and written scores keep, all operations keep. -/
theorem applyAll_kept {s : Session} (hr : s.rules = rules)
    (hs : ∀ stage, s.stage = some stage → I stage) (ops : List Operation) :
    ∀ stage, (s.applyAll ops).stage = some stage → I stage := by
  induction ops generalizing s with
  | nil => exact hs
  | cons op ops ih =>
    refine ih ((apply_rules s op).trans hr) fun stage hstage => ?_
    rcases apply_cases s op with h | ⟨board, h⟩ | ⟨before, slot, score, hbefore, h⟩
    · obtain ⟨before, hbefore, hn⟩ := h.exists_before hstage
      rw [hr] at hn
      exact hn.kept (fun s _ => hnew s.board) hplay (hs before hbefore)
    · rw [h] at hstage
      cases hstage
      exact hnew board
    · rw [h] at hstage
      cases hstage
      exact hscore before slot score (hs before hbefore)

/-- So it is true of the stage that any history leads to. -/
theorem after_kept (history : List Operation) {stage : Stage}
    (hs : (after rules history).stage = some stage) : I stage :=
  applyAll_kept hnew hplay hscore rfl (fun _ h => by cases h) history stage hs

end Kept

end Session
end BunnyGrid
