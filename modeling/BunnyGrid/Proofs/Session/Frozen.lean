import BunnyGrid.Proofs.Play.Deed
import BunnyGrid.Proofs.Session.Actors
import BunnyGrid.Proofs.Session.Independence
import BunnyGrid.Proofs.Session.Status

/-! What is over stays as it is: nothing that goes on from where the world stands changes a world
that is over, or a bunny that has left the map. -/
namespace BunnyGrid

/-- Whether a bunny was called by its place or by counting from the end. -/
def Actor.IsNamed (who : Actor) : Prop := who.label = who.slot ∨ who.label < 0

theorem Actor.isNamed_of_ofIndex? {count : Nat} {index : Int} {who : Actor}
    (h : Actor.ofIndex? count index = some who) : who.IsNamed := by
  obtain ⟨hlabel, hdirect⟩ := ofIndex?_label h
  by_cases hi : 0 ≤ index
  · exact .inl (of_decide_eq_true (hdirect hi))
  · exact .inr (by omega)

/-- Nothing happens to a bunny, and the log has nothing new of it. -/
structure Spares (slot : Nat) (b : Bunny) (bunnies : List Bunny) (events events' : List Event) :
    Prop where
  bunny : bunnies[slot]? = some b
  log : ∃ new, events' = events ++ new ∧ ∀ e ∈ new, e.agent ≠ slot

namespace Play

variable {rules : Rules} {who : Actor} {p q : Play} {slot : Nat} {b : Bunny}

theorem spares_of_silent (hb : p.world.bunnies[slot]? = some b)
    (hq : q.world.bunnies = p.world.bunnies) (he : q.events = p.events) :
    Spares slot b q.world.bunnies p.events.toList q.events.toList where
  bunny := hq ▸ hb
  log := ⟨[], by simp [he], by simp⟩

/-- A bunny that has left the map does no deeds, and those of others are not told of it. -/
theorem Done.spares {b' : Bunny} (h : Done rules who p q b') (hwho : who.IsNamed)
    (hb : p.world.bunnies[slot]? = some b) (ha : b.active = false) :
    Spares slot b q.world.bunnies p.events.toList q.events.toList := by
  have hother : who.slot ≠ slot := by
    rintro rfl
    have hsame : b = b' := Option.some.inj (hb.symm.trans h.bunny)
    have hactive := h.active
    rw [← hsame, ha] at hactive
    cases hactive
  obtain ⟨kind, after, -, hq, message, he⟩ := h.deed
  constructor
  · rw [hq, List.getElem?_set_ne hother]
    exact hb
  · refine ⟨_, he, fun e hmem => ?_⟩
    cases List.mem_singleton.mp hmem
    show who.label ≠ slot
    rcases hwho with hlabel | hlabel <;> omega

theorem StepBy.spares (h : StepBy rules Actor.IsNamed p q) (hb : p.world.bunnies[slot]? = some b)
    (ha : b.active = false) :
    Spares slot b q.world.bunnies p.events.toList q.events.toList := by
  cases h with
  | change hwho h =>
    rcases h.done with ⟨hq, he⟩ | ⟨b', hdone⟩
    · exact spares_of_silent hb hq he
    · exact hdone.spares hwho hb ha
  | start | finish => exact spares_of_silent hb rfl rfl

theorem StepsBy.spares (h : StepsBy rules Actor.IsNamed p q)
    (hb : p.world.bunnies[slot]? = some b) (ha : b.active = false) :
    Spares slot b q.world.bunnies p.events.toList q.events.toList := by
  induction h with
  | refl => exact spares_of_silent hb rfl rfl
  | tail _ h ih =>
    obtain ⟨new, hnew, hno⟩ := ih.log
    have hstep := h.spares ih.bunny ha
    obtain ⟨more, hmore, hnone⟩ := hstep.log
    refine ⟨hstep.bunny, new ++ more, by rw [hmore, hnew, List.append_assoc], fun e hmem => ?_⟩
    rcases List.mem_append.mp hmem with hmem | hmem
    · exact hno e hmem
    · exact hnone e hmem

/-- In a world that is over there are no steps that change it. -/
theorem Steps.frozen {limit : Nat} (h : Steps rules p q) (hp : p.world.Coherent limit)
    (ho : p.world.ended = true) : q.world = p.world ∧ q.events = p.events := by
  induction h with
  | refl => exact ⟨rfl, rfl⟩
  | @tail r q _ h ih =>
    obtain ⟨hw, he⟩ := ih
    have hover : r.world.ended = true := hw ▸ ho
    cases h with
    | change h =>
      obtain ⟨hw', he'⟩ := h.frozen hover
      exact ⟨hw'.trans hw, he'.trans he⟩
    | start hgo =>
      rw [hover] at hgo
      cases hgo
    | finish hs =>
      have hstatus := hp.ended_iff.mp ho
      rw [← hw] at hstatus
      rcases hs with hs | hs <;> simp [hs] at hstatus

end Play

namespace Session

/-- What goes on leaves a world that is over and the bunnies that have left the map alone. -/
structure Rests (stage stage' : Stage) : Prop where
  ended : stage.world.ended = true → stage'.world = stage.world ∧ stage'.events = stage.events
  gone : ∀ slot b, stage.world.bunnies[slot]? = some b → b.active = false →
    Spares slot b stage'.world.bunnies stage.events.toList stage'.events.toList

variable {s : Session} {stage stage' : Stage} {rules : Rules}

theorem PlayedBy.rests {limit : Nat} (h : PlayedBy Actor.IsNamed rules stage stage')
    (hc : stage.world.Coherent limit) : Rests stage stage' := by
  obtain ⟨q, hq, rfl⟩ := h
  constructor
  · intro ho
    exact hq.steps.frozen hc ho
  · intro slot b hb ha
    exact hq.spares hb ha

/-- In every world that is over, whatever goes on from there changes neither the world nor its log.
In every world, whatever goes on from there leaves a bunny that has left the map as it is, and the
log gets no event of it. Only a load, a run from the start or putting the world back ends this. -/
theorem over_stays_over (rules : Rules) (history : List Operation) (stage : Stage)
    (hs : (after rules history).stage = some stage) (ops : List Operation)
    (hops : ∀ op ∈ ops, op.goesOn = true) :
    ∃ stage', ((after rules history).applyAll ops).stage = some stage' ∧
      (stage.world.ended = true →
        stage'.world = stage.world ∧ stage'.events = stage.events) ∧
      ∀ (slot : Nat) b, stage.world.bunnies[slot]? = some b → b.active = false →
        stage'.world.bunnies[slot]? = some b ∧
          ∃ new, stage'.events.toList = stage.events.toList ++ new ∧ ∀ e ∈ new, e.agent ≠ slot := by
  have hslot (slot : Nat) : (Actor.ofSlot slot).IsNamed := .inl rfl
  have hmay (op : Operation) (_ : op ∈ ops) : op.Allowed Actor.IsNamed :=
    fun _ _ _ _ h => Actor.isNamed_of_ofIndex? h
  have halong := applyAll_playedBy hslot (after rules history) ops hops hmay
  obtain ⟨stage', hs', hplayed⟩ := halong.exists_after hs
  have hrests := hplayed.rests (after_coherent rules history stage hs)
  refine ⟨stage', hs', hrests.ended, fun slot b hb ha => ?_⟩
  have hspared := hrests.gone slot b hb ha
  exact ⟨hspared.bunny, hspared.log⟩

/-- The first bunny has left the map. Then a run, a turn and a jump only move the second one. -/
theorem over_stays_over_pair :
    let right : Block := .act (.turn .right)
    let ops : List Operation := [.continueWith [right] [right], .turn 0 .right, .jump 1 .ahead 2]
    ∃ stage stage', (after {} [.install .pair, .jump 0 .ahead 1]).stage = some stage ∧
      ((after {} [.install .pair, .jump 0 .ahead 1]).applyAll ops).stage = some stage' ∧
      stage.world.bunnies[0]? = some { x := 0, y := 0, active := false } ∧
      stage'.world.bunnies[0]? = some { x := 0, y := 0, active := false } ∧
      stage'.world.bunnies[1]? = some { x := 1, y := 0, facing := .right, active := false } := by
  intro right ops
  let s := after {} [.install .pair, .jump 0 .ahead 1]
  have hgone : (s.stage.map (·.world.bunnies[0]?)) =
      some (some { x := 0, y := 0, active := false }) := by
    decide
  have hmoved : ((s.applyAll ops).stage.map (·.world.bunnies[1]?)) =
      some (some { x := 1, y := 0, facing := .right, active := false }) := by
    decide
  obtain ⟨stage, hs, hbunny⟩ := Option.map_eq_some_iff.mp hgone
  have hops : ∀ op ∈ ops, op.goesOn = true := by
    simp [ops, Operation.goesOn]
  obtain ⟨stage', hs', -, hrests⟩ :=
    over_stays_over {} [.install .pair, .jump 0 .ahead 1] stage hs ops hops
  rw [hs'] at hmoved
  exact ⟨stage, stage', hs, hs', hbunny, (hrests 0 _ hbunny rfl).1, Option.some.inj hmoved⟩

end Session
end BunnyGrid
