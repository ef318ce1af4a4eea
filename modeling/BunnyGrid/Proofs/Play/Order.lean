import BunnyGrid.Proofs.Play.Turns

/-! The order in which blocks have their turns. A schedule, with its cursors and flags, comes to one
pass over a list of turns: the blocks of two programs one by one, then the rest of the longer
program. -/
namespace BunnyGrid

/-- Two programs by turns, one block of each, then the rest of the longer one. -/
def mergedTurns (a b : Actor) : Program → Program → List (Actor × Block)
  | [], ys => ys.map (b, ·)
  | x :: xs, [] => (x :: xs).map (a, ·)
  | x :: xs, y :: ys => (a, x) :: (b, y) :: mergedTurns a b xs ys

section Merged

variable {a b : Actor} {f : Actor → Bool}

theorem mergedTurns_nil_right (a b : Actor) (xs : Program) :
    mergedTurns a b xs [] = xs.map (a, ·) := by
  cases xs <;> rfl

/-- Every turn is that of a block of one of the programs. -/
theorem mem_mergedTurns {turn : Actor × Block} {xs ys : Program}
    (h : turn ∈ mergedTurns a b xs ys) : turn.1 = a ∧ turn.2 ∈ xs ∨ turn.1 = b ∧ turn.2 ∈ ys := by
  induction xs generalizing ys with
  | nil =>
    obtain ⟨y, hy, rfl⟩ := List.mem_map.mp h
    exact .inr ⟨rfl, hy⟩
  | cons x xs ih =>
    cases ys with
    | nil =>
      obtain ⟨z, hz, rfl⟩ := List.mem_map.mp h
      exact .inl ⟨rfl, hz⟩
    | cons y ys =>
      simp only [mergedTurns, List.mem_cons] at h
      rcases h with rfl | rfl | h
      · exact .inl ⟨rfl, List.mem_cons_self⟩
      · exact .inr ⟨rfl, List.mem_cons_self⟩
      · have htail := ih h
        exact htail.imp (.imp_right (List.mem_cons_of_mem x))
          (.imp_right (List.mem_cons_of_mem y))

theorem filter_turns (hf : f a = true) (xs : Program) :
    (xs.map (a, ·)).filter (f ·.1) = xs.map (a, ·) := by
  rw [List.filter_eq_self]
  simp [hf]

theorem filter_turns_eq_nil (hf : f a = false) (xs : Program) :
    (xs.map (a, ·)).filter (f ·.1) = [] := by
  rw [List.filter_eq_nil_iff]
  simp [hf]

/-- Without the turns of the second bunny the first program is left, in its order. -/
theorem filter_mergedTurns_left (ha : f a = true) (hb : f b = false) (xs ys : Program) :
    (mergedTurns a b xs ys).filter (f ·.1) = xs.map (a, ·) := by
  induction xs generalizing ys with
  | nil => exact filter_turns_eq_nil hb ys
  | cons x xs ih =>
    cases ys with
    | nil => exact filter_turns ha (x :: xs)
    | cons y ys => simp [mergedTurns, ha, hb, ih ys]

/-- Without the turns of the first bunny the second program is left, in its order. -/
theorem filter_mergedTurns_right (ha : f a = false) (hb : f b = true) (xs ys : Program) :
    (mergedTurns a b xs ys).filter (f ·.1) = ys.map (b, ·) := by
  induction xs generalizing ys with
  | nil => exact filter_turns hb ys
  | cons x xs ih =>
    cases ys with
    | nil => exact filter_turns_eq_nil ha (x :: xs)
    | cons y ys => simp [mergedTurns, ha, hb, ih ys]

end Merged

namespace Play

/-- A block at its turn: it is skipped if its bunny has to stop; else it takes one count, and is run
to its end if the count is within the limit. -/
def takeTurn (rules : Rules) (p : Play) (turn : Actor × Block) : Play :=
  if p.halted turn.1 then p
  else
    match p.tick rules with
    | (q, true) => q.exec rules turn.1 turn.2
    | (q, false) => q

/-- Turns from left to right. -/
def takeTurns (rules : Rules) (turns : List (Actor × Block)) (p : Play) : Play :=
  turns.foldl (takeTurn rules) p

variable {rules : Rules} {who other a b : Actor} {p q : Play}

section Halted

/-- A change puts no bunny back on the map. -/
theorem Change.active (h : Change rules other p q) (who : Actor)
    (hq : (q.bunny? who).any (·.active) = true) : (p.bunny? who).any (·.active) = true := by
  have modified {f : Bunny → Bunny} (hf : ∀ b, (f b).active = true → b.active = true)
      (hb : q.world.bunnies = p.world.bunnies.modify other.slot f) :
      (p.bunny? who).any (·.active) = true := by
    unfold bunny? at hq ⊢
    rw [hb, List.getElem?_modify] at hq
    cases hw : p.world.bunnies[who.slot]? with
    | none => simp [hw] at hq
    | some b =>
      rw [hw] at hq
      by_cases hs : other.slot = who.slot
      · simp only [hs, if_true, Option.map_eq_map, Option.map_some, Option.any_some] at hq ⊢
        exact hf b hq
      · simpa [hs] using hq
  have same (hb : q.world.bunnies = p.world.bunnies) : (p.bunny? who).any (·.active) = true :=
    modified (fun _ h => h) (by rw [hb]; exact (List.modify_id ..).symm)
  cases h with
  | tell => exact hq
  | turn _ t =>
    exact modified (f := fun b => { b with facing := b.facing.turned t.quarters })
      (fun _ h => h) (by simp)
  | store _ f =>
    exact modified (f := fun b => { b with vars := f b.vars }) (fun _ h => h) (by simp)
  | leave => exact modified (f := fun b => { b with active := false }) (by simp) (by simp)
  | land _ x y _ =>
    exact modified (f := .landed rules (p.world.grid.cell x y) x y) (by simp) (by simp)
  | skip => exact same (by simp)
  | tick => exact same (by simp)

theorem Change.halted (h : Change rules other p q) (hp : p.halted who = true) :
    q.halted who = true := by
  by_cases he : p.world.ended = true
  · unfold Play.halted bunny?
    rw [(h.frozen he).1]
    exact hp
  · unfold Play.halted at hp ⊢
    have hgone : (p.bunny? who).any (·.active) = false := by simpa [he] using hp
    cases hq : (q.bunny? who).any (·.active) with
    | false => simp
    | true =>
      rw [h.active who hq] at hgone
      cases hgone

/-- A bunny that has to stop does not go on, whatever any bunny does. -/
theorem Changes.halted (h : Changes rules other p q) (hp : p.halted who = true) :
    q.halted who = true := by
  induction h with
  | refl => exact hp
  | tail _ h ih => exact h.halted ih

end Halted

section Turns

theorem takeTurn_of_halted (h : p.halted who = true) (block : Block) :
    p.takeTurn rules (who, block) = p := by
  unfold takeTurn
  rw [if_pos h]

theorem takeTurn_changes (rules : Rules) (p : Play) (turn : Actor × Block) :
    Changes rules turn.1 p (p.takeTurn rules turn) := by
  unfold takeTurn
  by_cases hh : p.halted turn.1 = true
  · rw [if_pos hh]
  · have hc : Change rules turn.1 p (p.tick rules).1 := .tick (by simpa using hh)
    rw [if_neg hh]
    rcases ht : p.tick rules with ⟨q, _ | _⟩
    · rw [ht] at hc
      exact .single hc
    · rw [ht] at hc
      exact .head hc (exec_runs turn.2 q).changes

theorem takeTurns_cons (turn : Actor × Block) (rest : List (Actor × Block)) (p : Play) :
    p.takeTurns rules (turn :: rest) = (p.takeTurn rules turn).takeTurns rules rest := rfl

/-- The turns of a bunny that has to stop do not count. -/
theorem takeTurns_filter (h : p.halted who = true) (turns : List (Actor × Block)) :
    p.takeTurns rules turns = p.takeTurns rules (turns.filter (·.1 ≠ who)) := by
  induction turns generalizing p with
  | nil => rfl
  | cons turn rest ih =>
    by_cases hw : turn.1 = who
    · have hskip : p.takeTurn rules turn = p := takeTurn_of_halted (hw ▸ h) turn.2
      rw [takeTurns_cons, hskip, ih h]
      simp [hw]
    · have hstop := (takeTurn_changes rules p turn).halted h
      rw [takeTurns_cons, ih hstop]
      simp [hw, takeTurns_cons]

theorem takeTurns_of_stopped {xs : Program} (h : xs = [] ∨ p.halted a = true) :
    p.takeTurns rules (xs.map (a, ·)) = p := by
  rcases h with rfl | h
  · rfl
  · rw [takeTurns_filter h, filter_turns_eq_nil (f := (· ≠ a)) (by simp)]
    rfl

theorem takeTurns_of_left_stopped (hab : a ≠ b) {xs : Program} (h : xs = [] ∨ p.halted a = true)
    (ys : Program) :
    p.takeTurns rules (mergedTurns a b xs ys) = p.takeTurns rules (ys.map (b, ·)) := by
  rcases h with rfl | h
  · rfl
  · rw [takeTurns_filter h, filter_mergedTurns_right (f := (· ≠ a)) (by simp) (by simp [hab.symm])]

theorem takeTurns_of_right_stopped (hab : a ≠ b) {ys : Program} (h : ys = [] ∨ p.halted b = true)
    (xs : Program) :
    p.takeTurns rules (mergedTurns a b xs ys) = p.takeTurns rules (xs.map (a, ·)) := by
  rcases h with rfl | h
  · rw [mergedTurns_nil_right]
  · rw [takeTurns_filter h, filter_mergedTurns_left (f := (· ≠ b)) (by simp [hab]) (by simp)]

/-- Blocks of one bunny in order are its turns in order. -/
theorem execAll_eq_takeTurns (rules : Rules) (who : Actor) (bs : List Block) (p : Play) :
    p.execAll rules who bs = p.takeTurns rules (bs.map (who, ·)) := by
  induction bs generalizing p with
  | nil =>
    rw [execAll]
    rfl
  | cons b rest ih =>
    rw [execAll, List.map_cons, takeTurns_cons]
    by_cases hh : p.halted who = true
    · rw [enter_of_halted hh, takeTurn_of_halted hh, takeTurns_of_stopped (.inr hh)]
    · have hh : p.halted who = false := by simpa using hh
      rw [enter_of_not_halted hh, takeTurn, hh]
      rcases ht : p.tick rules with ⟨q, _ | _⟩
      · have hover : q.halted who = true := halted_of_ended (isCut_of_tick ht).1 who
        exact (takeTurns_of_stopped (.inr hover)).symm
      · exact ih _

/-- A turn is a program of one block. -/
theorem takeTurn_runs (rules : Rules) (turn : Actor × Block) (p : Play) :
    Runs rules turn.1 (.blocks [turn.2]) p (p.takeTurn rules turn) := by
  have hturn : p.execAll rules turn.1 [turn.2] = p.takeTurn rules turn :=
    execAll_eq_takeTurns rules turn.1 [turn.2] p
  rw [← hturn]
  exact execAll_runs [turn.2] p

theorem execAll_append (p : Play) (bs cs : List Block) :
    p.execAll rules who (bs ++ cs) = (p.execAll rules who bs).execAll rules who cs := by
  simp only [execAll_eq_takeTurns, List.map_append]
  exact List.foldl_append

theorem execAll_of_halted (h : p.halted who = true) (bs : List Block) :
    p.execAll rules who bs = p := by
  rw [execAll_eq_takeTurns, takeTurns_of_stopped (.inr h)]

end Turns

end Play

namespace Task
open Play

variable {rules : Rules} {t t' : Task} {p q : Play}

/-- A step of a task is the turn of its next block, or it has none left that counts. -/
theorem Moves.turn (h : Moves rules t p t' q) (hs : t.Sound p) :
    q = p ∧ t'.remaining = t.remaining ∧ (t.remaining = [] ∨ p.halted t.who = true) ∨
      ∃ b, t.remaining = b :: t'.remaining ∧ q = p.takeTurn rules (t.who, b) := by
  have next {b : Block} {r : Play} (hb : t.program[t.cursor]? = some b) :
      t.remaining = b :: ({ t with cursor := t.cursor + 1 }.settle r).remaining := by
    obtain ⟨hlt, rfl⟩ := List.getElem?_eq_some_iff.mp hb
    rw [remaining, remaining, settle_program, settle_cursor]
    exact List.drop_eq_getElem_cons hlt
  cases h with
  | rest hf => exact .inl ⟨rfl, rfl, hs hf⟩
  | stop _ hstop =>
    refine .inl ⟨rfl, rfl, ?_⟩
    rcases hstop with hh | hb
    · exact .inr hh
    · exact .inl (by simpa [remaining] using hb)
  | late _ hh hb ht =>
    refine .inr ⟨_, next hb, ?_⟩
    simp [takeTurn, hh, ht]
  | take _ hh hb ht hr =>
    refine .inr ⟨_, next hb, ?_⟩
    have hr := runs_block_iff.mp hr
    simp [takeTurn, hh, ht, hr]

theorem Sound.after {other : Actor} (h : t.Sound p) (hc : Changes rules other p q) : t.Sound q :=
  fun hf => (h hf).imp_right hc.halted

/-- Two tasks that alternate take the turns of the merged list. -/
theorem Alternates.eq_takeTurns {a b : Task} (h : Alternates rules a b p q) (hab : a.who ≠ b.who)
    (ha : a.Sound p) (hb : b.Sound p) :
    q = p.takeTurns rules (mergedTurns a.who b.who a.remaining b.remaining) := by
  -- A task that has to stop keeps its blocks, while the list goes on past their turns. That the
  -- turns of its bunny do not count any more brings the two together.
  induction h with
  | @done a b p h =>
    have hstop {t : Task} (ht : t.Sound p) (h : t.finished = true ∨ p.world.ended = true) :
        t.remaining = [] ∨ p.halted t.who = true := by
      rcases h with h | h
      · exact ht h
      · exact .inr (halted_of_ended h t.who)
    simp only [Bool.or_eq_true, Bool.and_eq_true] at h
    have hstopa := hstop ha (h.imp_left (·.1))
    have hstopb := hstop hb (h.imp_left (·.2))
    rw [takeTurns_of_right_stopped hab hstopb, takeTurns_of_stopped hstopa]
  | @round a a' b b' p q r s h hma hmb hrest ih =>
    obtain ⟨hwa, ha', -⟩ := hma.inv ha
    have hbq := hb.after hma.changes
    obtain ⟨hwb, hb', -⟩ := hmb.inv hbq
    have hs := ih (hwa ▸ hwb ▸ hab) (ha'.after hmb.changes) hb'
    rw [hwa, hwb] at hs
    rcases hma.turn ha with ⟨rfl, hleft, hstop⟩ | ⟨x, hx, rfl⟩
    · rw [hleft, takeTurns_of_left_stopped hab (hstop.imp_right hmb.changes.halted)] at hs
      rw [hs, takeTurns_of_left_stopped hab hstop]
      rcases hmb.turn hbq with ⟨rfl, hright, -⟩ | ⟨y, hy, rfl⟩
      · rw [hright]
      · rw [hy]
        rfl
    · rcases hmb.turn hbq with ⟨rfl, hright, hstop⟩ | ⟨y, hy, rfl⟩
      · rw [hright, takeTurns_of_right_stopped hab hstop] at hs
        rw [hs, hx]
        cases hb : b.remaining with
        | nil => rfl
        | cons y ys =>
          have hover := hstop.resolve_left (by simp [hb])
          rw [mergedTurns, takeTurns_cons, takeTurns_cons, takeTurn_of_halted hover,
            takeTurns_of_right_stopped hab (.inr hover)]
      · rw [hs, hx, hy]
        rfl

end Task

namespace Play

variable {rules : Rules} {p : Play}

/-- The turns of a run. A bunny that is alone on its map has all of them. -/
def schedule (p : Play) (first second : Program) : List (Actor × Block) :=
  if p.world.bunnies.length = 1 then first.map (.ofSlot 0, ·)
  else mergedTurns (.ofSlot 0) (.ofSlot 1) first second

theorem mem_schedule {turn : Actor × Block} {first second : Program}
    (h : turn ∈ p.schedule first second) :
    turn.1 = .ofSlot 0 ∧ turn.2 ∈ first ∨ turn.1 = .ofSlot 1 ∧ turn.2 ∈ second := by
  unfold schedule at h
  split at h
  · obtain ⟨b, hb, rfl⟩ := List.mem_map.mp h
    exact .inl ⟨rfl, hb⟩
  · exact mem_mergedTurns h

theorem runPair_eq_takeTurns (rules : Rules) (first second : Program) (p : Play) :
    p.runPair rules first second =
      p.takeTurns rules (mergedTurns (.ofSlot 0) (.ofSlot 1) first second) := by
  have hleft (who : Actor) (program : Program) :
      Task.left { who, program } = program.length + 1 := rfl
  let a : Task := { who := .ofSlot 0, program := first }
  let b : Task := { who := .ofSlot 1, program := second }
  have halternates : Task.Alternates rules a b p (p.runPair rules first second) := by
    apply Task.alternate_alternates
    · rw [hleft]
      omega
    · rw [hleft]
      omega
  have hapart : Actor.ofSlot 0 ≠ .ofSlot 1 := by decide
  exact halternates.eq_takeTurns hapart nofun nofun

/-- Every run is one pass over its turns. -/
theorem runToEnd_eq_takeTurns (rules : Rules) (first second : Program) (p : Play) :
    p.runToEnd rules first second =
      (p.start.takeTurns rules (p.schedule first second)).finish := by
  have hcount : p.start.world.bunnies.length = p.world.bunnies.length := rfl
  unfold runToEnd schedule
  dsimp only
  rw [hcount]
  split
  · rw [execAll_eq_takeTurns]
  · rw [runPair_eq_takeTurns]

/-- The end of a run is reached by one pass over its turns. -/
theorem Ends.eq_takeTurns {first second : Program} {q : Play} (h : Ends rules first second p q)
    (hp : p.world.ended = false) :
    q = (p.start.takeTurns rules (p.schedule first second)).finish := by
  rw [h.det (runToEnd_ends hp), runToEnd_eq_takeTurns]

end Play
end BunnyGrid
