import BunnyGrid.Proofs.Play.Change
import Mathlib.Data.List.Basic

/-! What a change does to the bunny that makes it: one deed of an active bunny, told by one event,
or nothing that the log tells of. -/
namespace BunnyGrid

/-- A deed of a bunny on a grid: what the log calls it, and how the bunny stands after it. -/
inductive Deed (rules : Rules) (g : Grid) (b : Bunny) : EventKind → Bunny → Prop
  | turn (t : Turn) : Deed rules g b .turn { b with facing := b.facing.turned t.quarters }
  | store (vars : Store) : Deed rules g b .variable { b with vars }
  | skip : Deed rules g b .malformed b
  | leave : Deed rules g b .exit { b with active := false }
  | land (x y : Int) : Deed rules g b (g.cell x y).kind.landing (b.landed rules (g.cell x y) x y)

namespace Play

/-- A play in which a bunny did something, as the log tells. -/
structure Done (rules : Rules) (who : Actor) (p q : Play) (b : Bunny) : Prop where
  bunny : p.bunny? who = some b
  active : b.active = true
  deed : ∃ kind b', Deed rules p.world.grid b kind b' ∧
    q.world.bunnies = p.world.bunnies.set who.slot b' ∧
    ∃ message, q.events.toList = p.events.toList ++ [b'.event who.label kind message]

variable {rules : Rules} {who : Actor} {p q : Play} {b : Bunny}

theorem bunnies_modify (h : p.bunny? who = some b) (f : Bunny → Bunny) :
    p.world.bunnies.modify who.slot f = p.world.bunnies.set who.slot (f b) := by
  obtain ⟨hlen, hb⟩ := List.getElem?_eq_some_iff.mp h
  rw [List.modify_eq_set_get f hlen, List.get_eq_getElem, hb]

theorem Done.of_deed {f : Bunny → Bunny} {kind : EventKind} {message : String}
    (hb : p.bunny? who = some b) (ha : b.active = true)
    (hd : Deed rules p.world.grid b kind (f b))
    (hq : q.world.bunnies = p.world.bunnies.modify who.slot f)
    (he : q.events.toList = p.events.toList ++ [(f b).event who.label kind message]) :
    Done rules who p q b := by
  rw [bunnies_modify hb f] at hq
  exact ⟨hb, ha, kind, f b, hd, hq, message, he⟩

/-- A change is a deed of the bunny that makes it, or leaves the bunnies and the log alone. -/
theorem Change.done (h : Change rules who p q) :
    (q.world.bunnies = p.world.bunnies ∧ q.events = p.events) ∨ ∃ b, Done rules who p q b := by
  cases h with
  | tell => exact .inl ⟨rfl, rfl⟩
  | tick => exact .inl ⟨by simp, by simp⟩
  | turn hact t =>
    obtain ⟨b, hb, ha⟩ := exists_bunny_of_not_halted (not_halted_of_canAct hact)
    let f (b : Bunny) : Bunny := { b with facing := b.facing.turned t.quarters }
    have hlog := mapBunny_log hb f .turn ""
    exact .inr ⟨b, .of_deed hb ha (.turn t) (by simp [f]) hlog⟩
  | store hgo f =>
    obtain ⟨b, hb, ha⟩ := exists_bunny_of_not_halted hgo
    let g (b : Bunny) : Bunny := { b with vars := f b.vars }
    have hlog := mapBunny_log hb g .variable ""
    exact .inr ⟨b, .of_deed hb ha (.store _) (by simp [g]) hlog⟩
  | skip hgo =>
    obtain ⟨b, hb, ha⟩ := exists_bunny_of_not_halted hgo
    have hlog := record_log p who .malformed "" hb
    exact .inr ⟨b, .of_deed (f := id) hb ha .skip (by simp) hlog⟩
  | leave hact =>
    obtain ⟨b, hb, ha⟩ := exists_bunny_of_not_halted (not_halted_of_canAct hact)
    obtain ⟨message, hlog⟩ := leave_log p who hb
    let f (b : Bunny) : Bunny := { b with active := false }
    exact .inr ⟨b, .of_deed (f := f) hb ha .leave (by simp [f]) hlog⟩
  | land hact x y hxy =>
    obtain ⟨b, hb, ha⟩ := exists_bunny_of_not_halted (not_halted_of_canAct hact)
    obtain ⟨message, hlog⟩ := land_log rules p who hb x y
    exact .inr ⟨b, .of_deed hb ha (.land x y) (by simp) hlog⟩

end Play
end BunnyGrid
