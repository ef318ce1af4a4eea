import BunnyGrid.Proofs.Play.Change

/-! The rules by which blocks run, with no bound on the rounds of a loop. Every block has a
derivation, and it derives what the executable definition gives: its bound on the rounds of a loop
never cuts one short. -/
namespace BunnyGrid.Play

/-- What a bunny can be about to run. -/
inductive Code
  | block (b : Block)
  | blocks (bs : List Block)
  | loop (condition : Expr) (body : List Block)
  | rounds (n : Nat) (body : List Block)

/-- `Runs rules who c p q` says that a bunny that runs `c` in `p` comes to an end in `q`. -/
inductive Runs (rules : Rules) (who : Actor) : Code → Play → Play → Prop
  | halt {b p} (h : p.halted who = true) : Runs rules who (.block b) p p
  | act {a p} (h : p.halted who = false) :
      Runs rules who (.block (.act a)) p (p.perform rules who a)
  | yes {c yes no p q r} (h : p.halted who = false) (ht : p.test who c = (q, true))
      (hr : Runs rules who (.blocks yes) q r) : Runs rules who (.block (.branch c yes no)) p r
  | no {c yes no p q r} (h : p.halted who = false) (ht : p.test who c = (q, false))
      (hr : Runs rules who (.blocks no) q r) : Runs rules who (.block (.branch c yes no)) p r
  | whileLoop {c body p q} (h : p.halted who = false) (hl : Runs rules who (.loop c body) p q) :
      Runs rules who (.block (.whileLoop c body)) p q
  | repeatLoop {times body p q} (h : p.halted who = false)
      (hr : Runs rules who (.rounds (times.eval (p.self? who)).toNat body)
        (p.noteAll (times.notices (p.self? who))) q) :
      Runs rules who (.block (.repeatLoop times body)) p q
  | unknown {kind raw p} (h : p.halted who = false) : Runs rules who (.block (.unknown kind raw)) p
      ((p.note (.malformedBlock kind raw)).record who .malformed "")
  | nil {p} : Runs rules who (.blocks []) p p
  | stop {b rest p q} (h : p.enter rules who = (q, false)) :
      Runs rules who (.blocks (b :: rest)) p q
  | cons {b rest p q r s} (h : p.enter rules who = (q, true)) (hb : Runs rules who (.block b) q r)
      (hr : Runs rules who (.blocks rest) r s) : Runs rules who (.blocks (b :: rest)) p s
  | loopEnd {c body p q} (ht : p.test who c = (q, false)) : Runs rules who (.loop c body) p q
  | loopStop {c body p q r} (ht : p.test who c = (q, true)) (h : q.enter rules who = (r, false)) :
      Runs rules who (.loop c body) p r
  | loopNext {c body p q r s t} (ht : p.test who c = (q, true)) (h : q.enter rules who = (r, true))
      (hb : Runs rules who (.blocks body) r s) (hl : Runs rules who (.loop c body) s t) :
      Runs rules who (.loop c body) p t
  | roundsEnd {body p} : Runs rules who (.rounds 0 body) p p
  | roundsStop {n body p q} (h : p.enter rules who = (q, false)) :
      Runs rules who (.rounds (n + 1) body) p q
  | roundsNext {n body p q r s} (h : p.enter rules who = (q, true))
      (hb : Runs rules who (.blocks body) q r) (hr : Runs rules who (.rounds n body) r s) :
      Runs rules who (.rounds (n + 1) body) p s

section Changes

variable {rules : Rules} {who : Actor} {c : Code} {p q r : Play} {flag : Bool}

theorem changes_of_test {condition : Expr} (h : p.test who condition = (q, flag)) :
    Changes rules who p q := by
  cases h
  exact .single (.tell _)

theorem changes_of_enter (h : p.enter rules who = (q, flag)) : Changes rules who p q := by
  have hc := enter_changes rules p who
  rw [h] at hc
  exact hc

/-- A count that is within the limit brings the limit nearer. -/
theorem ticksLeft_of_enter (h : p.enter rules who = (q, true)) :
    q.ticksLeft rules < p.ticksLeft rules := by
  unfold enter at h
  split at h
  case isTrue => cases h
  case isFalse =>
    by_cases hl : (p.world.steps : Int) + 1 ≤ rules.stepLimit
    · rw [tick_of_le rules p hl] at h
      cases h
      simp only [ticksLeft]
      omega
    · have ht := (tick_of_lt rules p (Int.not_le.mp hl)).1
      rw [h] at ht
      cases ht

theorem Changes.ticksLeft_le (h : Changes rules who p q) :
    q.ticksLeft rules ≤ p.ticksLeft rules := by
  have := h.steps_le
  simp only [ticksLeft]
  omega

/-- Whatever a bunny runs is a chain of changes. -/
theorem Runs.changes (h : Runs rules who c p q) : Changes rules who p q := by
  induction h with
  | halt | nil | roundsEnd => exact .refl
  | act h => exact perform_changes rules _ who h _
  | unknown h =>
    exact (Relation.ReflTransGen.single (.tell _)).tail (.skip (p := Play.note _ _) h)
  | yes _ ht _ ih | no _ ht _ ih => exact (changes_of_test ht).trans ih
  | whileLoop _ _ ih => exact ih
  | repeatLoop _ _ ih => exact .trans (.single (.tell _)) ih
  | stop h | roundsStop h => exact changes_of_enter h
  | cons h _ _ ihb ihr | roundsNext h _ _ ihb ihr =>
    exact (changes_of_enter h).trans (ihb.trans ihr)
  | loopEnd ht => exact changes_of_test ht
  | loopStop ht h => exact (changes_of_test ht).trans (changes_of_enter h)
  | loopNext ht h _ _ ihb ihl =>
    exact (changes_of_test ht).trans ((changes_of_enter h).trans (ihb.trans ihl))

end Changes

section Exec

variable {rules : Rules} {who : Actor}

/-- A loop that is granted more rounds than there are counts left ends by itself. -/
theorem rounds_runs_loop {condition : Expr} {body : List Block}
    (hbody : ∀ p, Runs rules who (.blocks body) p (execAll rules who body p)) (n : Nat) (p : Play)
    (hn : p.ticksLeft rules < n) : Runs rules who (.loop condition body) p
      (rounds (fun p =>
        let (p, holds) := p.test who condition
        if holds then
          let (p, goes) := p.enter rules who
          if goes then (execAll rules who body p, true) else (p, false)
        else (p, false)) n p) := by
  induction n generalizing p with
  | zero => omega
  | succ n ih =>
    rw [rounds]
    rcases ht : p.test who condition with ⟨q, _ | _⟩
    · exact .loopEnd ht
    rcases he : q.enter rules who with ⟨r, _ | _⟩
    · simp only [if_true, he]
      exact .loopStop ht he
    · simp only [if_true, he]
      have hr := ticksLeft_of_enter he
      have hq : q.ticksLeft rules ≤ p.ticksLeft rules := (changes_of_test ht).ticksLeft_le
      have hs := (hbody r).changes.ticksLeft_le
      exact .loopNext ht he (hbody r) (ih _ (by omega))

theorem rounds_runs_rounds {body : List Block}
    (hbody : ∀ p, Runs rules who (.blocks body) p (execAll rules who body p)) (n : Nat) (p : Play) :
    Runs rules who (.rounds n body) p
      (rounds (fun p =>
        let (p, goes) := p.enter rules who
        if goes then (execAll rules who body p, true) else (p, false)) n p) := by
  induction n generalizing p with
  | zero => exact .roundsEnd
  | succ n ih =>
    rw [rounds]
    rcases he : p.enter rules who with ⟨q, _ | _⟩
    · exact .roundsStop he
    · exact .roundsNext he (hbody q) (ih _)

mutual

/-- A block comes to an end, where the executable definition says. -/
theorem exec_runs (b : Block) (p : Play) : Runs rules who (.block b) p (exec rules who b p) := by
  cases hh : p.halted who with
  | true =>
    have : exec rules who b p = p := by cases b <;> simp [exec, hh]
    rw [this]
    exact .halt hh
  | false =>
    cases b with
    | act a =>
      rw [exec, hh]
      exact .act hh
    | branch c yes no =>
      rw [exec, hh]
      rcases ht : p.test who c with ⟨q, _ | _⟩
      · exact .no hh ht (execAll_runs no q)
      · exact .yes hh ht (execAll_runs yes q)
    | whileLoop c body =>
      rw [exec, hh]
      exact .whileLoop hh (rounds_runs_loop (execAll_runs body) _ _ (Nat.lt_succ_self _))
    | repeatLoop times body =>
      rw [exec, hh]
      exact .repeatLoop hh (rounds_runs_rounds (execAll_runs body) _ _)
    | unknown kind raw =>
      rw [exec, hh]
      exact .unknown hh

theorem execAll_runs (bs : List Block) (p : Play) :
    Runs rules who (.blocks bs) p (execAll rules who bs p) := by
  cases bs with
  | nil => exact .nil
  | cons b rest =>
    rw [execAll]
    rcases he : p.enter rules who with ⟨q, _ | _⟩
    · exact .stop he
    · exact .cons he (exec_runs b q) (execAll_runs rest _)

end

end Exec

section Unique

variable {rules : Rules} {who : Actor} {c : Code} {p q r : Play}

private theorem pair_ne {a b : Play} {x : Play × Bool} (ht : x = (a, true)) (hf : x = (b, false)) :
    False := by
  rw [ht] at hf
  cases hf

private theorem pair_eq {a b : Play} {flag : Bool} {x : Play × Bool} (ha : x = (a, flag))
    (hb : x = (b, flag)) : a = b := (Prod.mk.inj (ha.symm.trans hb)).1

/-- A derivation has one end. -/
theorem Runs.det (h : Runs rules who c p q) (h' : Runs rules who c p r) : q = r := by
  induction h generalizing r with
  | halt h => cases h' <;> simp_all
  | act h => cases h' <;> simp_all
  | unknown h => cases h' <;> simp_all
  | yes h ht _ ih =>
    cases h' with
    | halt h' => simp_all
    | yes _ ht' hr' =>
      cases pair_eq ht ht'
      exact ih hr'
    | no _ ht' _ => exact (pair_ne ht ht').elim
  | no h ht _ ih =>
    cases h' with
    | halt h' => simp_all
    | yes _ ht' _ => exact (pair_ne ht' ht).elim
    | no _ ht' hr' =>
      cases pair_eq ht ht'
      exact ih hr'
  | whileLoop h _ ih =>
    cases h' with
    | halt h' => simp_all
    | whileLoop _ hl' => exact ih hl'
  | repeatLoop h _ ih =>
    cases h' with
    | halt h' => simp_all
    | repeatLoop _ hr' => exact ih hr'
  | nil => cases h'; rfl
  | stop h =>
    cases h' with
    | stop h' => exact pair_eq h h'
    | cons h' _ _ => exact (pair_ne h' h).elim
  | cons h _ _ ihb ihr =>
    cases h' with
    | stop h' => exact (pair_ne h h').elim
    | cons h' hb' hr' =>
      cases pair_eq h h'
      cases ihb hb'
      exact ihr hr'
  | loopEnd ht =>
    cases h' with
    | loopEnd ht' => exact pair_eq ht ht'
    | loopStop ht' _ | loopNext ht' _ _ _ => exact (pair_ne ht' ht).elim
  | loopStop ht h =>
    cases h' with
    | loopEnd ht' => exact (pair_ne ht ht').elim
    | loopStop ht' h' =>
      cases pair_eq ht ht'
      exact pair_eq h h'
    | loopNext ht' h' _ _ =>
      cases pair_eq ht ht'
      exact (pair_ne h' h).elim
  | loopNext ht h _ _ ihb ihl =>
    cases h' with
    | loopEnd ht' => exact (pair_ne ht ht').elim
    | loopStop ht' h' =>
      cases pair_eq ht ht'
      exact (pair_ne h h').elim
    | loopNext ht' h' hb' hl' =>
      cases pair_eq ht ht'
      cases pair_eq h h'
      cases ihb hb'
      exact ihl hl'
  | roundsEnd => cases h'; rfl
  | roundsStop h =>
    cases h' with
    | roundsStop h' => exact pair_eq h h'
    | roundsNext h' _ _ => exact (pair_ne h' h).elim
  | roundsNext h _ _ ihb ihr =>
    cases h' with
    | roundsStop h' => exact (pair_ne h h').elim
    | roundsNext h' hb' hr' =>
      cases pair_eq h h'
      cases ihb hb'
      exact ihr hr'

/-- The rules derive for a block what the executable definition gives, and nothing else. -/
theorem runs_block_iff {b : Block} : Runs rules who (.block b) p q ↔ q = exec rules who b p :=
  ⟨fun h => h.det (exec_runs b p), fun h => h ▸ exec_runs b p⟩

theorem runs_blocks_iff {bs : List Block} :
    Runs rules who (.blocks bs) p q ↔ q = execAll rules who bs p :=
  ⟨fun h => h.det (execAll_runs bs p), fun h => h ▸ execAll_runs bs p⟩

end Unique

end BunnyGrid.Play
