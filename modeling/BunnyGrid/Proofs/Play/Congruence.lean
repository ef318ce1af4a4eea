import BunnyGrid.Proofs.Play.Change

/-! Relations of plays that actions keep. An action is put together from a few parts, so a relation
that each part keeps is kept by every action. -/
namespace BunnyGrid

theorem Amount.eval_congr {self self' : Option Bunny}
    (h : ∀ e : Expr, e.eval self' = e.eval self) (amount : Amount) :
    amount.eval self' = amount.eval self := by
  cases amount with
  | plain n => rfl
  | expr e => exact congrArg Scalar.toCount (h e)

namespace Play

/-- A relation of plays that the parts of a bunny's actions keep. -/
structure IsCongruence (rules : Rules) (who : Actor) (R : Play → Play → Prop) : Prop where
  eval : ∀ {p p'}, R p p' → ∀ e : Expr, e.eval (p'.self? who) = e.eval (p.self? who)
  target : ∀ {p p' b b'}, R p p' → p.bunny? who = some b → p'.bunny? who = some b' →
    ∀ kind amount, b'.target kind amount = b.target kind amount
  contains : ∀ {p p'}, R p p' → ∀ x y, p'.world.grid.contains x y = p.world.grid.contains x y
  tell : ∀ {p p'}, R p p' → ∀ ns ns', R { p with notices := ns } { p' with notices := ns' }
  record : ∀ {p p'}, R p p' → ∀ kind message,
    R (p.record who kind message) (p'.record who kind message)
  face : ∀ {p p'}, R p p' → ∀ t : Turn,
    R (p.mapBunny who fun b => { b with facing := b.facing.turned t.quarters })
      (p'.mapBunny who fun b => { b with facing := b.facing.turned t.quarters })
  store : ∀ {p p'}, R p p' → ∀ f : Store → Store,
    R (p.mapBunny who fun b => { b with vars := f b.vars })
      (p'.mapBunny who fun b => { b with vars := f b.vars })
  land : ∀ {p p' b}, R p p' → p.bunny? who = some b → ∀ x y,
    R (p.land rules who x y) (p'.land rules who x y)
  leave : ∀ {p p' b}, R p p' → p.bunny? who = some b → R (p.leave who) (p'.leave who)

theorem canAct_of_not_halted {p : Play} {who : Actor} (h : p.halted who = false) :
    p.canAct who = who.isDirect := by
  simp only [halted, Bool.or_eq_false_iff, Bool.not_eq_false'] at h
  simp [canAct, h.1, h.2]

namespace IsCongruence

variable {rules : Rules} {who : Actor} {R : Play → Play → Prop} {p p' : Play}

theorem turn (hR : IsCongruence rules who R) (h : R p p') (hh : p.halted who = false)
    (hh' : p'.halted who = false) (t : Turn) : R (p.turn who t).1 (p'.turn who t).1 := by
  unfold Play.turn
  rw [canAct_of_not_halted hh, canAct_of_not_halted hh']
  split
  · exact hR.record (hR.face h t) .turn ""
  · exact h

theorem jump (hR : IsCongruence rules who R) (h : R p p') (hh : p.halted who = false)
    (hh' : p'.halted who = false) (kind : Jump) (amount : Int) :
    R (Play.jump rules p who kind amount).1 (Play.jump rules p' who kind amount).1 := by
  obtain ⟨b, hb, -⟩ := exists_bunny_of_not_halted hh
  obtain ⟨b', hb', -⟩ := exists_bunny_of_not_halted hh'
  unfold Play.jump
  rw [canAct_of_not_halted hh, canAct_of_not_halted hh', hb, hb']
  dsimp only
  rw [hR.target h hb hb', hR.contains h]
  split
  case isFalse => exact h
  case isTrue =>
    split
    · exact hR.record (hR.tell h _ _) .malformed ""
    · split
      · exact hR.land h hb _ _
      · exact hR.leave h hb

theorem perform (hR : IsCongruence rules who R) (h : R p p') (hh : p.halted who = false)
    (hh' : p'.halted who = false) (a : Action) :
    R (p.perform rules who a) (p'.perform rules who a) := by
  cases a with
  | jump kind amount =>
    have htold : R (p.noteAll (amount.notices (p.self? who)))
        (p'.noteAll (amount.notices (p'.self? who))) := hR.tell h _ _
    simp only [Play.perform, Amount.eval_congr (hR.eval h) amount]
    exact hR.jump htold hh hh' kind _
  | turn t => exact hR.turn h hh hh' t
  | setVar name value =>
    simp only [Play.perform, hR.eval h value]
    exact hR.record (hR.store (hR.tell h _ _) (.set name _)) .variable ""
  | changeVar name delta =>
    simp only [Play.perform, hR.eval h delta]
    exact hR.record (hR.store (hR.tell h _ _) fun vars =>
      vars.set name (.number (Scalar.arith .add (vars.get name) _))) .variable ""

end IsCongruence

end Play
end BunnyGrid
