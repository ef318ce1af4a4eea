import BunnyGrid.Proofs.Play.Order

/-! Runs move by move. What a bunny is about to run makes one move, leaves other code in its place,
and so on; a walk lists the plays in between. Of every run there is one. -/
namespace BunnyGrid.Play

/-- One move: the code that is left, and the play after it. At most one event is logged in it, and
after the event nothing changes that a picture shows. -/
def Code.advance (rules : Rules) (who : Actor) (p : Play) : Code → List Code × Play
  | .block b =>
    if p.halted who then ([], p)
    else
      match b with
      | .act a => ([], p.perform rules who a)
      | .branch condition yes no =>
        let (q, holds) := p.test who condition
        ([.blocks (if holds then yes else no)], q)
      | .whileLoop condition body => ([.loop condition body], p)
      | .repeatLoop times body =>
        let self := p.self? who
        ([.rounds (times.eval self).toNat body], p.noteAll (times.notices self))
      | .unknown kind raw => ([], (p.note (.malformedBlock kind raw)).record who .malformed "")
  | .blocks [] => ([], p)
  | .blocks (b :: rest) =>
    let (q, goes) := p.enter rules who
    (if goes then [.block b, .blocks rest] else [], q)
  | .loop condition body =>
    let (q, holds) := p.test who condition
    if holds then
      let (r, goes) := q.enter rules who
      (if goes then [.blocks body, .loop condition body] else [], r)
    else ([], q)
  | .rounds 0 _ => ([], p)
  | .rounds (n + 1) body =>
    let (q, goes) := p.enter rules who
    (if goes then [.blocks body, .rounds n body] else [], q)

/-- `Walk rules jobs p ps q` says that bunnies that run code one after the other from `p` on come to
an end in `q`, and that `ps` are the plays after each move. -/
inductive Walk (rules : Rules) : List (Actor × Code) → Play → List Play → Play → Prop
  | done {p} : Walk rules [] p [] p
  | next {who c codes rest p q ps r} (h : c.advance rules who p = (codes, q))
      (hw : Walk rules (codes.map (who, ·) ++ rest) q ps r) :
      Walk rules ((who, c) :: rest) p (q :: ps) r

variable {rules : Rules} {who : Actor} {jobs rest : List (Actor × Code)} {c : Code}
  {codes : List Code} {p q r : Play} {ps qs : List Play}

theorem Walk.append (h : Walk rules jobs p ps q) (h' : Walk rules rest q qs r) :
    Walk rules (jobs ++ rest) p (ps ++ qs) r := by
  induction h with
  | done => exact h'
  | next ha _ ih =>
    have hrest := ih h'
    rw [List.append_assoc] at hrest
    exact .next ha hrest

/-- Code that makes a move walks on as the code that is left. -/
theorem walk_of_advance (h : c.advance rules who p = (codes, q))
    (hw : Walk rules (codes.map (who, ·)) q ps r) : Walk rules [(who, c)] p (q :: ps) r := by
  have hrest : Walk rules (codes.map (who, ·) ++ []) q ps r := by rwa [List.append_nil]
  exact .next h hrest

theorem walk_of_none (h : c.advance rules who p = ([], q)) :
    ∃ ps, Walk rules [(who, c)] p ps q := ⟨[q], walk_of_advance h .done⟩

theorem walk_of_one {c' : Code} (h : c.advance rules who p = ([c'], q))
    (hw : ∃ ps, Walk rules [(who, c')] q ps r) : ∃ ps, Walk rules [(who, c)] p ps r := by
  obtain ⟨ps, hw⟩ := hw
  exact ⟨q :: ps, walk_of_advance h hw⟩

theorem walk_of_two {c' c'' : Code} {s : Play} (h : c.advance rules who p = ([c', c''], q))
    (hw : ∃ ps, Walk rules [(who, c')] q ps r) (hw' : ∃ ps, Walk rules [(who, c'')] r ps s) :
    ∃ ps, Walk rules [(who, c)] p ps s := by
  obtain ⟨ps, hw⟩ := hw
  obtain ⟨qs, hw'⟩ := hw'
  exact ⟨q :: (ps ++ qs), walk_of_advance h (hw.append hw')⟩

/-- Whatever a bunny runs is a walk. -/
theorem Runs.walk (h : Runs rules who c p q) : ∃ ps, Walk rules [(who, c)] p ps q := by
  induction h with
  | halt h | act h | unknown h =>
    apply walk_of_none
    simp [Code.advance, h]
  | yes h ht _ ih | no h ht _ ih =>
    refine walk_of_one ?_ ih
    simp [Code.advance, h, ht]
  | whileLoop h _ ih | repeatLoop h _ ih =>
    refine walk_of_one ?_ ih
    simp [Code.advance, h]
  | nil | roundsEnd => exact walk_of_none rfl
  | stop h | roundsStop h =>
    apply walk_of_none
    simp [Code.advance, h]
  | cons h _ _ ihb ihr | roundsNext h _ _ ihb ihr =>
    refine walk_of_two ?_ ihb ihr
    simp [Code.advance, h]
  | loopEnd ht =>
    apply walk_of_none
    simp [Code.advance, ht]
  | loopStop ht h =>
    apply walk_of_none
    simp [Code.advance, ht, h]
  | loopNext ht h _ _ ihb ihl =>
    refine walk_of_two ?_ ihb ihl
    simp [Code.advance, ht, h]

/-- The turns of a run as code. -/
def turnsCode (turns : List (Actor × Block)) : List (Actor × Code) :=
  turns.map fun turn => (turn.1, .blocks [turn.2])

theorem takeTurns_walk (rules : Rules) (turns : List (Actor × Block)) (p : Play) :
    ∃ ps, Walk rules (turnsCode turns) p ps (p.takeTurns rules turns) := by
  induction turns generalizing p with
  | nil => exact ⟨[], .done⟩
  | cons turn rest ih =>
    obtain ⟨ps, hw⟩ := (takeTurn_runs rules turn p).walk
    obtain ⟨qs, hw'⟩ := ih (p.takeTurn rules turn)
    exact ⟨ps ++ qs, hw.append hw'⟩

section Moves

theorem enter_change (rules : Rules) (who : Actor) (p : Play) :
    Change rules who p (p.enter rules who).1 := by
  unfold enter
  by_cases hh : p.halted who = true
  · rw [if_pos hh]
    exact .tell p.notices
  · rw [if_neg hh]
    exact .tick (by simpa using hh)

/-- A move is one change of a play whose log may have been told something. -/
theorem advance_change (rules : Rules) (who : Actor) (p : Play) (c : Code) :
    ∃ notices, Change rules who { p with notices } (c.advance rules who p).2 := by
  have still : ∃ notices, Change rules who { p with notices } p := ⟨p.notices, .tell p.notices⟩
  have entered : ∃ notices, Change rules who { p with notices } (p.enter rules who).1 :=
    ⟨p.notices, enter_change rules who p⟩
  cases c with
  | block b =>
    by_cases hh : p.halted who = true
    · simp only [Code.advance, hh, if_true]
      exact still
    · simp only [Code.advance, hh]
      have hh : p.halted who = false := by simpa using hh
      cases b with
      | act a => exact perform_change rules p who hh a
      | branch condition yes no => exact ⟨p.notices, .tell _⟩
      | whileLoop condition body => exact still
      | repeatLoop times body => exact ⟨p.notices, .tell _⟩
      | unknown kind raw => exact ⟨_, .skip (p := p.note (.malformedBlock kind raw)) hh⟩
  | blocks bs =>
    cases bs with
    | nil => exact still
    | cons b rest => exact entered
  | loop condition body =>
    unfold Code.advance
    dsimp only
    split
    · exact ⟨_, enter_change rules who (p.test who condition).1⟩
    · exact ⟨p.notices, .tell _⟩
  | rounds n body =>
    cases n with
    | zero => exact still
    | succ n => exact entered

/-- In a world that is over a walk changes nothing. -/
theorem Walk.frozen (hw : Walk rules jobs p ps q) (hp : p.world.ended = true) :
    q.world = p.world ∧ q.events = p.events := by
  induction hw with
  | done => exact ⟨rfl, rfl⟩
  | @next who c codes rest p q ps r ha _ ih =>
    obtain ⟨told, hc⟩ := advance_change rules who p c
    rw [ha] at hc
    obtain ⟨hworld, hevents⟩ := hc.frozen hp
    rw [← hworld, ← hevents]
    exact ih (by rwa [hworld])

/-- A walk only adds to the log and to the counter. -/
theorem Walk.extends (hw : Walk rules jobs p ps q) :
    p.events.toList <+: q.events.toList ∧ p.world.steps ≤ q.world.steps := by
  induction hw with
  | done => exact ⟨List.prefix_rfl, Nat.le_refl _⟩
  | @next who c codes rest p q ps r ha _ ih =>
    obtain ⟨told, hc⟩ := advance_change rules who p c
    rw [ha] at hc
    obtain ⟨new, -, hlog⟩ := hc.events
    have hfirst : p.events.toList <+: q.events.toList := ⟨new, hlog.symm⟩
    exact ⟨hfirst.trans ih.1, Nat.le_trans hc.steps_le ih.2⟩

end Moves

/-- The plays of a walk in which an event was just logged. -/
def logged (p : Play) : List Play → List Play
  | [] => []
  | q :: ps => if p.events.size < q.events.size then q :: q.logged ps else q.logged ps

end BunnyGrid.Play
