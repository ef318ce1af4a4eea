import BunnyGrid.Proofs.Play.Matching
import BunnyGrid.Proofs.Play.Placement
import BunnyGrid.Proofs.Program.Respelling

/-! Runs of programs that write amounts in two ways. A jump over more cells than the grid has leaves
it, and a loop of more rounds than there are counts left is cut, so amounts past both are one. -/
namespace BunnyGrid

/-- A jump by more cells than the grid has leads off the grid. -/
theorem Bunny.not_contains_target {g : Grid} {b : Bunny} (hb : g.contains b.x b.y = true)
    {amount : Int} (hfar : g.size ≤ amount) (kind : Jump) :
    g.contains (b.target kind amount).1 (b.target kind amount).2 = false := by
  have hplace := Grid.contains_iff.mp hb
  rw [← Bool.not_eq_true, Grid.contains_iff]
  have hright (f : Direction) : f.turned 1 = f.clockwise := by cases f <;> rfl
  have hleft (f : Direction) : f.turned 3 = f.clockwise.clockwise.clockwise := by cases f <;> rfl
  unfold target
  cases kind with
  | ahead => cases b.facing <;> simp only [Direction.vector] <;> omega
  | right => cases b.facing <;> simp only [hright, Direction.clockwise, Direction.vector] <;> omega
  | left => cases b.facing <;> simp only [hleft, Direction.clockwise, Direction.vector] <;> omega

namespace Play

/-- Code that is the same but for how amounts are written, or for the rounds of loops that are left
where there are more of them than counts. -/
inductive Code.Respelt (left : Nat) : Code → Code → Prop
  | block {b b'} (h : b.Respelt b') : Respelt left (.block b) (.block b')
  | blocks {bs bs'} (h : List.Forall₂ Block.Respelt bs bs') :
      Respelt left (.blocks bs) (.blocks bs')
  | loop {condition body body'} (h : List.Forall₂ Block.Respelt body body') :
      Respelt left (.loop condition body) (.loop condition body')
  | rounds {n n' body body'} (hn : n = n' ∨ left < n ∧ left < n')
      (h : List.Forall₂ Block.Respelt body body') :
      Respelt left (.rounds n body) (.rounds n' body')

theorem Code.Respelt.refl (left : Nat) (c : Code) : c.Respelt left c := by
  cases c with
  | block b => exact .block (.same b)
  | blocks bs => exact .blocks (Program.Respelt.refl bs)
  | loop condition body => exact .loop (Program.Respelt.refl body)
  | rounds n body => exact .rounds (.inl rfl) (Program.Respelt.refl body)

theorem Code.Respelt.mono {left left' : Nat} {c c' : Code} (h : c.Respelt left c')
    (hle : left' ≤ left) : c.Respelt left' c' := by
  cases h with
  | block h => exact .block h
  | blocks h => exact .blocks h
  | loop h => exact .loop h
  | rounds hn h => exact .rounds (hn.imp_right fun hn => ⟨by omega, by omega⟩) h

section Moves

variable {rules : Rules} {who : Actor} {board : Board} {p p' : Play}

/-- A bunny that jumps by more cells than the grid has leaves the map, if it may jump. -/
theorem jump_of_far (hh : p.halted who = false) (hp : p.world.WellFormed board)
    (kind : Jump) {amount : Int} (hfar : board.grid.size < amount) :
    (Play.jump rules p who kind amount).1 = if who.isDirect then p.leave who else p := by
  obtain ⟨b, hb, -⟩ := exists_bunny_of_not_halted hh
  have hplaced : p.world.grid.contains b.x b.y = true := by
    rw [Grid.contains_congr hp.size]
    exact hp.placed b (List.mem_of_getElem? hb)
  have hsize := hp.size
  have houtside : p.world.grid.contains (b.target kind amount).1 (b.target kind amount).2 = false :=
    Bunny.not_contains_target hplaced (by omega) kind
  unfold Play.jump
  rw [canAct_of_not_halted hh, if_neg (by omega : ¬ amount < 1), hb]
  dsimp only
  rw [houtside]
  split <;> rfl

/-- Jumps by amounts that no map tells apart do the same. -/
theorem jump_same (h : Same p p') (hh : p.halted who = false) (hp : p.world.WellFormed board)
    (hsize : board.grid.size < 2 ^ 53) (kind : Jump) {n n' : Int} (hn : SameCount n n') :
    Same (Play.jump rules p who kind n).1 (Play.jump rules p' who kind n').1 := by
  have hR := same_isBisimulation rules who
  have hh' : p'.halted who = false := (hR.halted h).trans hh
  rcases hn with rfl | ⟨hlow, hlow'⟩ | ⟨hfar, hfar'⟩
  · exact hR.jump h hh hh' kind n
  · unfold Play.jump
    rw [canAct_of_not_halted hh, canAct_of_not_halted hh', if_pos hlow, if_pos hlow']
    split
    · exact hR.record (h.note _ _) .malformed ""
    · exact h
  · have hp' : p'.world.WellFormed board := h.world ▸ hp
    obtain ⟨b, hb, -⟩ := exists_bunny_of_not_halted hh
    rw [jump_of_far hh hp kind (by omega), jump_of_far hh' hp' kind (by omega)]
    split
    · exact hR.leave h hb
    · exact h

/-- What is left after a count is respelt if it is so with the counts that are left then. -/
theorem enter_respelt (h : Same p p') {codes codes' : List Code}
    (hcodes : ∀ q, p.enter rules who = (q, true) →
      List.Forall₂ (Code.Respelt (q.ticksLeft rules)) codes codes') :
    Same (p.enter rules who).1 (p'.enter rules who).1 ∧
      List.Forall₂ (Code.Respelt ((p.enter rules who).1.ticksLeft rules))
        (if (p.enter rules who).2 then codes else [])
        (if (p'.enter rules who).2 then codes' else []) := by
  obtain ⟨hgoes, hq⟩ := (same_isBisimulation rules who).enter h
  refine ⟨hq, ?_⟩
  rw [hgoes]
  rcases he : p.enter rules who with ⟨q, _ | _⟩
  · exact .nil
  · exact hcodes q he

/-- A move of a block leaves respelt code. -/
theorem advance_block_respelt (h : Same p p') (hp : p.world.WellFormed board)
    (hsize : board.grid.size < 2 ^ 53) (hlimit : rules.stepLimit < 2 ^ 53) {b b' : Block}
    (hb : b.Respelt b') :
    let next := (Code.block b).advance rules who p
    let next' := (Code.block b').advance rules who p'
    Same next.2 next'.2 ∧
      List.Forall₂ (Code.Respelt (next.2.ticksLeft rules)) next.1 next'.1 := by
  have hR := same_isBisimulation rules who
  have hself : p'.self? who = p.self? who := h.matches.toAgrees.self? who
  cases hb with
  | same b =>
    obtain ⟨hcodes, hq⟩ := hR.advance h (.block b)
    dsimp only
    rw [hcodes]
    exact ⟨hq, List.forall₂_same.mpr fun c _ => .refl _ c⟩
  | @jump kind amount amount' hamount =>
    unfold Code.advance
    dsimp only
    rw [hR.halted h]
    cases hh : p.halted who with
    | true => exact ⟨h, .nil⟩
    | false =>
      have htold : Same (p.noteAll (amount.notices (p.self? who)))
          (p'.noteAll (amount'.notices (p'.self? who))) := ⟨h.world, h.events⟩
      have hcount := hamount.sameCount (p.self? who)
      simp only [Play.perform, hself] at htold ⊢
      exact ⟨jump_same htold hh hp hsize kind hcount, .nil⟩
  | @branch condition yes yes' no no' hyes hno =>
    obtain ⟨hflag, hq⟩ := hR.test h condition
    unfold Code.advance
    dsimp only
    rw [hR.halted h, hflag]
    split
    · exact ⟨h, .nil⟩
    · refine ⟨hq, .cons (.blocks ?_) .nil⟩
      split
      · exact hyes
      · exact hno
  | whileLoop hbody =>
    unfold Code.advance
    dsimp only
    rw [hR.halted h]
    split
    · exact ⟨h, .nil⟩
    · exact ⟨h, .cons (.loop hbody) .nil⟩
  | @repeatLoop times times' body body' htimes hbody =>
    have hcount := htimes.sameCount (p.self? who)
    unfold Code.advance
    dsimp only
    rw [hR.halted h, hself]
    split
    · exact ⟨h, .nil⟩
    · refine ⟨⟨h.world, h.events⟩, .cons (.rounds ?_ hbody) .nil⟩
      show _ ∨ p.ticksLeft rules < _ ∧ p.ticksLeft rules < _
      unfold SameCount at hcount
      unfold ticksLeft
      omega

/-- A move of respelt code leaves respelt code. -/
theorem advance_respelt (who : Actor) (h : Same p p') (hp : p.world.WellFormed board)
    (hsize : board.grid.size < 2 ^ 53) (hlimit : rules.stepLimit < 2 ^ 53) {c c' : Code}
    (hc : c.Respelt (p.ticksLeft rules) c') :
    let next := c.advance rules who p
    let next' := c'.advance rules who p'
    Same next.2 next'.2 ∧
      List.Forall₂ (Code.Respelt (next.2.ticksLeft rules)) next.1 next'.1 := by
  have hR := same_isBisimulation rules who
  cases hc with
  | block hb => exact advance_block_respelt h hp hsize hlimit hb
  | blocks hbs =>
    cases hbs with
    | nil => exact ⟨h, .nil⟩
    | cons hb hrest =>
      exact enter_respelt h fun q _ => .cons (.block hb) (.cons (.blocks hrest) .nil)
  | @loop condition body body' hbody =>
    obtain ⟨hflag, hq⟩ := hR.test h condition
    unfold Code.advance
    dsimp only
    rw [hflag]
    split
    · exact enter_respelt hq fun q _ => .cons (.blocks hbody) (.cons (.loop hbody) .nil)
    · exact ⟨hq, .nil⟩
  | @rounds n n' body body' hn hbody =>
    cases n with
    | zero =>
      obtain rfl : n' = 0 := by omega
      exact ⟨h, .nil⟩
    | succ n =>
      obtain ⟨n', rfl⟩ : ∃ k, n' = k + 1 := ⟨n' - 1, by omega⟩
      refine enter_respelt h fun q hq => ?_
      have hless := ticksLeft_of_enter hq
      exact .cons (.blocks hbody) (.cons (.rounds (by omega) hbody) .nil)

end Moves

section Run

variable {rules : Rules} {board : Board} {p p' q q' : Play}

/-- Walks of respelt code from one play come to one play. -/
theorem Walk.respelt {jobs jobs' : List (Actor × Code)} {ps ps' : List Play}
    (hw : Walk rules jobs p ps q) (hw' : Walk rules jobs' p' ps' q')
    (hjobs :
      List.Forall₂ (fun j j' => j'.1 = j.1 ∧ j.2.Respelt (p.ticksLeft rules) j'.2) jobs jobs')
    (h : Same p p') (hp : p.world.WellFormed board) (hsize : board.grid.size < 2 ^ 53)
    (hlimit : rules.stepLimit < 2 ^ 53) : Same q q' := by
  induction hw generalizing p' ps' jobs' with
  | done =>
    cases hjobs
    cases hw'
    exact h
  | @next who c codes rest p q ps r ha _ ih =>
    cases hjobs with
    | @cons _ j' _ rest' hj hrest =>
      obtain ⟨who', c'⟩ := j'
      obtain ⟨rfl, hc⟩ := hj
      cases hw' with
      | next ha' hrest' =>
        obtain ⟨hq, hcodes⟩ := advance_respelt who' h hp hsize hlimit hc
        rw [ha, ha'] at hq
        rw [ha, ha'] at hcodes
        obtain ⟨told, hchange⟩ := advance_change rules who' p c
        rw [ha] at hchange
        have hfewer : q.ticksLeft rules ≤ p.ticksLeft rules :=
          Changes.ticksLeft_le (p := { p with notices := told }) (.single hchange)
        refine ih hrest' (List.rel_append ?_ ?_) hq (hchange.wellFormed hp)
        · rw [List.forall₂_map_left_iff, List.forall₂_map_right_iff]
          exact hcodes.imp fun _ _ hcode => ⟨rfl, hcode⟩
        · exact hrest.imp fun _ _ hjob => ⟨hjob.1, hjob.2.mono hfewer⟩

theorem takeTurns_respelt {turns turns' : List (Actor × Block)} (hturns : TurnsRespelt turns turns')
    (h : Same p p') (hp : p.world.WellFormed board) (hsize : board.grid.size < 2 ^ 53)
    (hlimit : rules.stepLimit < 2 ^ 53) :
    Same (p.takeTurns rules turns) (p'.takeTurns rules turns') := by
  obtain ⟨ps, hw⟩ := takeTurns_walk rules turns p
  obtain ⟨ps', hw'⟩ := takeTurns_walk rules turns' p'
  refine hw.respelt hw' ?_ h hp hsize hlimit
  unfold turnsCode
  rw [List.forall₂_map_left_iff, List.forall₂_map_right_iff]
  exact hturns.imp fun _ _ hturn => ⟨hturn.1, .blocks (.cons hturn.2 .nil)⟩

variable {first first' second second' : Program}

theorem runToEnd_respelt (hfirst : first.Respelt first') (hsecond : second.Respelt second')
    (h : Same p p') (hp : p.world.WellFormed board) (hsize : board.grid.size < 2 ^ 53)
    (hlimit : rules.stepLimit < 2 ^ 53) :
    Same (p.runToEnd rules first second) (p'.runToEnd rules first' second') := by
  have hturns : TurnsRespelt (p.schedule first second) (p'.schedule first' second') := by
    unfold schedule
    rw [h.world]
    split
    · exact turnsRespelt_map _ hfirst
    · exact turnsRespelt_mergedTurns _ _ hfirst hsecond
  have hstart : p.start.world.WellFormed board := hp.congr rfl rfl
  rw [runToEnd_eq_takeTurns, runToEnd_eq_takeTurns]
  exact (takeTurns_respelt hturns h.start hstart hsize hlimit).finish

/-- Respelt programs lead from a world to the same world, log and result. -/
theorem run_respelt (hfirst : first.Respelt first') (hsecond : second.Respelt second')
    (hp : p.world.WellFormed board) (hsize : board.grid.size < 2 ^ 53)
    (hlimit : rules.stepLimit < 2 ^ 53) :
    Same (p.run rules first second).1 (p.run rules first' second').1 ∧
      (p.run rules first' second').2 = (p.run rules first second).2 := by
  have hsame : Same p p := ⟨rfl, rfl⟩
  refine hsame.run_of hfirst.isEmpty_eq hsecond.isEmpty_eq ?_ ?_
  · intro q q' hq h
    exact runToEnd_respelt hfirst hsecond h (hq.world ▸ hp) hsize hlimit
  · intro q q' hq h
    exact runToEnd_respelt hfirst .nil h (hq.world ▸ hp) hsize hlimit

end Run

end Play
end BunnyGrid
