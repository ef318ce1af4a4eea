import BunnyGrid.Proofs.Play.Coherence
import BunnyGrid.Proofs.Play.Pace
import BunnyGrid.Proofs.Play.Actors
import BunnyGrid.Proofs.Program.Flat

/-! Blocks that are written out do what the blocks themselves do, but for what is counted. -/
namespace BunnyGrid

namespace Play

/-- Two plays agree in all but what was counted and told. -/
structure Agrees (p p' : Play) : Prop where
  grid : p'.world.grid = p.world.grid
  bunnies : p'.world.bunnies = p.world.bunnies
  ended : p'.world.ended = p.world.ended
  status : p'.world.status = p.world.status
  events : p'.events = p.events

section Agrees

variable {rules : Rules} {p p' q : Play}

theorem Agrees.refl (p : Play) : Agrees p p := ⟨rfl, rfl, rfl, rfl, rfl⟩

theorem Agrees.symm (h : Agrees p q) : Agrees q p :=
  ⟨h.grid.symm, h.bunnies.symm, h.ended.symm, h.status.symm, h.events.symm⟩

theorem Agrees.trans {r : Play} (h : Agrees p q) (h' : Agrees q r) : Agrees p r :=
  ⟨h'.grid.trans h.grid, h'.bunnies.trans h.bunnies, h'.ended.trans h.ended,
    h'.status.trans h.status, h'.events.trans h.events⟩

theorem Agrees.tell (h : Agrees p p') (ns ns' : Array Notice) :
    Agrees { p with notices := ns } { p' with notices := ns' } :=
  ⟨h.grid, h.bunnies, h.ended, h.status, h.events⟩

theorem Agrees.bunny? (h : Agrees p p') (who : Actor) : p'.bunny? who = p.bunny? who := by
  unfold Play.bunny?
  rw [h.bunnies]

theorem Agrees.self? (h : Agrees p p') (who : Actor) : p'.self? who = p.self? who := by
  unfold Play.self?
  rw [h.bunny? who]

theorem Agrees.halted (h : Agrees p p') (who : Actor) : p'.halted who = p.halted who := by
  unfold Play.halted
  rw [h.ended, h.bunny? who]

theorem Agrees.record (h : Agrees p p') (who : Actor) (kind : EventKind) (message : String) :
    Agrees (p.record who kind message) (p'.record who kind message) := by
  unfold Play.record
  rw [h.bunny? who]
  cases p.bunny? who with
  | none => exact h
  | some b =>
    dsimp only
    rw [h.events]
    split
    all_goals exact ⟨h.grid, h.bunnies, h.ended, h.status, rfl⟩

theorem Agrees.mapBunny (h : Agrees p p') (who : Actor) (f : Bunny → Bunny) :
    Agrees (p.mapBunny who f) (p'.mapBunny who f) := by
  refine ⟨h.grid, ?_, h.ended, h.status, h.events⟩
  rw [mapBunny_world, mapBunny_world, World.mapBunny_bunnies, World.mapBunny_bunnies, h.bunnies]

theorem Agrees.leave (h : Agrees p p') (who : Actor) : Agrees (p.leave who) (p'.leave who) := by
  have hleft := (h.mapBunny who fun b => { b with active := false }).record who .exit
    s!"Bunny {who.label + 1} jumped off the map!"
  have hactive := congrArg (List.any · (·.active)) hleft.bunnies
  unfold Play.leave
  dsimp only
  unfold World.anyActive
  rw [hactive]
  split
  · exact hleft
  · exact ⟨hleft.grid, hleft.bunnies, rfl, rfl, hleft.events⟩

theorem Agrees.land (h : Agrees p p') (who : Actor) (x y : Int) :
    Agrees (p.land rules who x y) (p'.land rules who x y) := by
  have hmoved := h.mapBunny who fun b => { b with x, y, moves := b.moves + 1 }
  unfold Play.land
  dsimp only [mapBunny_world, World.mapBunny_grid]
  rw [h.grid]
  cases (p.world.grid.cell x y).kind with
  | empty => exact hmoved.record ..
  | stone | puddle => exact (hmoved.mapBunny who _).record ..
  | strawberry =>
    have hfed := hmoved.mapBunny who fun b =>
      { b with score := max 0 (b.score + (p.world.grid.cell x y).value) }
    refine Agrees.record ?_ who .strawberry _
    exact ⟨rfl, hfed.bunnies, hfed.ended, hfed.status, hfed.events⟩

/-- An action does the same to plays that agree. -/
theorem agrees_isCongruence (rules : Rules) (who : Actor) : IsCongruence rules who Agrees where
  eval := fun h e => by rw [h.self? who]
  target := fun h hb hb' _ _ => by
    cases hb.symm.trans ((h.bunny? who).symm.trans hb')
    rfl
  contains := fun h x y => by rw [h.grid]
  tell := Agrees.tell
  record := fun h => h.record who
  face := fun h _ => h.mapBunny who _
  store := fun h _ => h.mapBunny who _
  land := fun h _ => h.land who
  leave := fun h _ => h.leave who

theorem Agrees.finish (h : Agrees p p') : Agrees p.finish p'.finish := by
  unfold Play.finish
  rw [h.status]
  split
  · exact ⟨h.grid, h.bunnies, h.ended, rfl, h.events⟩
  · exact h

end Agrees

/-- A bunny performs actions one after the other, unless it has to stop. -/
def performAll (rules : Rules) (who : Actor) (actions : List Action) (p : Play) : Play :=
  actions.foldl (fun p a => p.exec rules who (.act a)) p

section PerformAll

variable {rules : Rules} {who : Actor} {p p' : Play}

theorem exec_act_of_halted (h : p.halted who = true) (a : Action) :
    p.exec rules who (.act a) = p := by
  rw [exec, if_pos h]

theorem exec_act_of_not_halted (h : p.halted who = false) (a : Action) :
    p.exec rules who (.act a) = p.perform rules who a := by
  rw [exec, h]
  rfl

theorem Agrees.exec_act (h : Agrees p p') (a : Action) :
    Agrees (p.exec rules who (.act a)) (p'.exec rules who (.act a)) := by
  cases hh : p.halted who with
  | true =>
    rw [exec_act_of_halted hh, exec_act_of_halted ((h.halted who).trans hh)]
    exact h
  | false =>
    have hh' := (h.halted who).trans hh
    rw [exec_act_of_not_halted hh, exec_act_of_not_halted hh']
    exact (agrees_isCongruence rules who).perform h hh hh' a

theorem Agrees.performAll (h : Agrees p p') (actions : List Action) :
    Agrees (p.performAll rules who actions) (p'.performAll rules who actions) := by
  induction actions generalizing p p' with
  | nil => exact h
  | cons a rest ih => exact ih (h.exec_act a)

theorem performAll_of_halted (h : p.halted who = true) (actions : List Action) :
    p.performAll rules who actions = p := by
  induction actions with
  | nil => rfl
  | cons a rest ih =>
    have hstep : p.performAll rules who (a :: rest) =
        (p.exec rules who (.act a)).performAll rules who rest := rfl
    rw [hstep, exec_act_of_halted h, ih]

theorem performAll_append (xs ys : List Action) : p.performAll rules who (xs ++ ys) =
    (p.performAll rules who xs).performAll rules who ys := List.foldl_append

end PerformAll

/-- From `p` to `q` a bunny performed actions in order, all of them or until it had to stop, and at
most `k` more than were counted. -/
def Does (rules : Rules) (who : Actor) (actions : List Action) (k : Int) (p q : Play) : Prop :=
  ∃ done, done <+: actions ∧ (done = actions ∨ q.halted who = true) ∧
    Agrees (p.performAll rules who done) q ∧
    (done.length : Int) + p.world.steps ≤ q.world.steps + k

section Does

variable {rules : Rules} {who : Actor} {xs ys : List Action} {p q r : Play} {k l : Int}

theorem Does.mono (h : Does rules who xs k p q) (hkl : k ≤ l) : Does rules who xs l p q := by
  obtain ⟨done, hpre, hall, hagrees, hn⟩ := h
  exact ⟨done, hpre, hall, hagrees, by omega⟩

theorem does_of_agrees (h : Agrees p q) (hn : (p.world.steps : Int) ≤ q.world.steps + k) :
    Does rules who [] k p q := ⟨[], List.nil_prefix, .inl rfl, h, by simpa using hn⟩

theorem does_of_halted (h : p.halted who = true) (xs : List Action) : Does rules who xs 0 p p :=
  ⟨[], List.nil_prefix, .inr h, .refl p, by simp⟩

theorem Does.trans (h : Does rules who xs k p q) (h' : Does rules who ys l q r) :
    Does rules who (xs ++ ys) (k + l) p r := by
  obtain ⟨done, hpre, hall, hagrees, hn⟩ := h
  obtain ⟨done', hpre', hall', hagrees', hn'⟩ := h'
  cases hh : q.halted who with
  | true =>
    have hsame : Agrees q r := by
      rw [performAll_of_halted hh] at hagrees'
      exact hagrees'
    have hr : r.halted who = true := (hsame.halted who).trans hh
    refine ⟨done, hpre.trans (List.prefix_append ..), .inr hr, hagrees.trans hsame, ?_⟩
    omega
  | false =>
    have hdone : done = xs := hall.resolve_right (by simp [hh])
    subst hdone
    refine ⟨done ++ done', (List.prefix_append_right_inj done).mpr hpre', ?_, ?_, ?_⟩
    · exact hall'.imp_left fun hdone' => by rw [hdone']
    · rw [performAll_append]
      exact (hagrees.performAll done').trans hagrees'
    · simp only [List.length_append]
      omega

/-- No more actions than were counted matter. -/
theorem Does.take {limit : Nat} (h : Does rules who xs 0 p q) (hq : q.world.steps ≤ limit) :
    Agrees (p.performAll rules who (xs.take limit)) q := by
  obtain ⟨done, hpre, hall, hagrees, hn⟩ := h
  have hlength : done.length ≤ limit := by omega
  have hdone : done <+: xs.take limit :=
    List.prefix_take_iff.mpr ⟨hpre, hlength⟩
  obtain ⟨rest, hrest⟩ := hdone
  rcases hall with rfl | hover
  · rw [List.take_of_length_le hlength]
    exact hagrees
  · have hover' : (p.performAll rules who done).halted who = true :=
      (hagrees.halted who).symm.trans hover
    rw [← hrest, performAll_append, performAll_of_halted hover']
    exact hagrees

theorem does_of_enter_true (h : p.enter rules who = (q, true)) : Does rules who [] (-1) p q := by
  rw [eq_of_enter_true h]
  exact does_of_agrees ⟨rfl, rfl, rfl, rfl, rfl⟩ (by push_cast; omega)

theorem does_of_enter_false (h : p.enter rules who = (q, false)) (hq : ¬ q.world.IsCut)
    (xs : List Action) : Does rules who xs 0 p q := by
  rcases cases_of_enter_false h with ⟨hh, rfl⟩ | ⟨hcut, -⟩
  · exact does_of_halted hh xs
  · exact absurd hcut hq

/-- The actions of what a bunny is about to run, where it can be written out. -/
def Code.flat : Code → List Action
  | .block b => b.flat
  | .blocks bs => Block.flatAll bs
  | .loop .. => []
  | .rounds n body => (List.replicate n (Block.flatAll body)).flatten

def Code.isStatic : Code → Bool
  | .block b => b.isStatic
  | .blocks bs => Block.areStatic bs
  | .loop .. => false
  | .rounds _ body => Block.areStatic body

/-- A run that is not cut short does the actions that its blocks are written out to. -/
theorem Runs.does {c : Code} (h : Runs rules who c p q) (hc : c.isStatic = true)
    (hq : ¬ q.world.IsCut) : Does rules who c.flat c.credit p q := by
  -- A block is counted before it is run, so only a block by itself has one more action than counts.
  induction h with
  | halt h => exact (does_of_halted h _).mono (by simp [Code.credit])
  | @act a p h =>
    refine ⟨[a], List.prefix_rfl, .inl rfl, ?_, ?_⟩
    · have hact : p.performAll rules who [a] = p.perform rules who a := exec_act_of_not_halted h a
      rw [hact]
      exact .refl _
    · simp [perform_steps, Code.credit, Int.add_comm]
  | unknown | yes | no | whileLoop | loopEnd | loopStop | loopNext => cases hc
  | @repeatLoop times body p q h _ ih =>
    cases times with
    | expr e => cases hc
    | plain n =>
      have htold : Does rules who [] 0 p (p.noteAll (Amount.notices (p.self? who) (.plain n))) :=
        does_of_agrees (.tell (.refl p) _ _) (by simp [noteAll])
      exact (htold.trans (ih hc hq)).mono (by simp [Code.credit])
  | nil => exact does_of_agrees (.refl _) (by simp [Code.credit])
  | stop h => exact does_of_enter_false h hq _
  | cons h hb hr ihb ihr =>
    obtain ⟨hstatic, hrest⟩ := Bool.and_eq_true_iff.mp hc
    have hblock := ihb hstatic (mt hr.changes.isCut hq)
    exact ((does_of_enter_true h).trans (hblock.trans (ihr hrest hq))).mono (by simp [Code.credit])
  | roundsEnd => exact does_of_agrees (.refl _) (by simp [Code.credit])
  | roundsStop h => exact does_of_enter_false h hq _
  | roundsNext h hb hr ihb ihr =>
    have hbody := ihb hc (mt hr.changes.isCut hq)
    have hround := (does_of_enter_true h).trans (hbody.trans (ihr hc hq))
    exact hround.mono (by simp [Code.credit])

/-- A run with no second program performs the first of its actions, as many as there are counts,
unless it passes the step limit. -/
theorem Ends.performs {first : Program} (h : Ends rules first [] p q)
    (hp : p.world.Going rules.stepLimit.toNat) (hstatic : Block.areStatic first = true)
    (hcut : q.world.status ≠ .runawayLoop) : Agrees (p.start.performAll rules (.ofSlot 0)
      ((Block.flatAll first).take rules.stepLimit.toNat)).finish q := by
  obtain ⟨r, hr, rfl⟩ := h.alone_of_nil hp.not_ended
  have hnot : ¬ r.world.IsCut := not_isCut_of_finish hcut
  have hreached : Steps rules p r := (start_steps hp.not_ended).trans hr.changes.course.steps
  have hcoherent : r.world.Coherent rules.stepLimit.toNat := hreached.coherent hp.coherent
  have hsteps : r.world.steps ≤ rules.stepLimit.toNat :=
    hcoherent.steps_le fun hrun => hnot ⟨hcoherent.ended_iff.mpr (.inr hrun), hrun⟩
  have hdoes : Does rules (.ofSlot 0) (Block.flatAll first) 0 p.start r := hr.does hstatic hnot
  exact (hdoes.take hsteps).finish

end Does

end Play
end BunnyGrid
