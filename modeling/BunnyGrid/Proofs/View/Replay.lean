import BunnyGrid.View.Replay
import BunnyGrid.Proofs.Play.Walk

/-! The events of a run tell all that a picture shows. Each change of a play that can be seen logs
one event, and the event alone makes the same change in any world that looks the same. -/
namespace BunnyGrid

/-- What a picture shows of a bunny, and no more. -/
def Bunny.seen (b : Bunny) : Bunny :=
  { x := b.x, y := b.y, facing := b.facing, active := b.active }

namespace World

/-- Two worlds look the same. -/
structure Resembles (w v : World) : Prop where
  grid : v.grid = w.grid
  bunnies : v.bunnies.map Bunny.seen = w.bunnies.map Bunny.seen

variable {w w' v : World}

theorem Resembles.congr (h : w.Resembles v) (hg : w'.grid = w.grid) (hb : w'.bunnies = w.bunnies) :
    w'.Resembles v :=
  ⟨h.grid.trans hg.symm, h.bunnies.trans (congrArg _ hb.symm)⟩

theorem foldl_drawBunny_seen (bs : List Bunny) (n : Nat) (rows : List (List String)) :
    ((bs.map Bunny.seen).zipIdx n).foldl (fun rows (b, i) => drawBunny rows i b) rows =
      (bs.zipIdx n).foldl (fun rows (b, i) => drawBunny rows i b) rows := by
  induction bs generalizing n rows with
  | nil => rfl
  | cons b bs ih =>
    have hdraw : drawBunny rows n b.seen = drawBunny rows n b := rfl
    simp only [List.map_cons, List.zipIdx_cons, List.foldl_cons, hdraw]
    exact ih ..

theorem Resembles.picture (h : w.Resembles v) : v.picture = w.picture := by
  have hrows (w : World) : w.picture = "\n".intercalate
      ((((w.bunnies.map Bunny.seen).zipIdx).foldl (fun rows (b, i) => drawBunny rows i b)
        w.symbols).map (" ".intercalate ·)) := by
    rw [foldl_drawBunny_seen]
    rfl
  have hsymbols : v.symbols = w.symbols := by
    unfold symbols
    rw [h.grid]
  rw [hrows v, hrows w, h.bunnies, hsymbols]

/-- Worlds that look the same still do so after one bunny was changed in each, if the bunnies come
to look the same. -/
theorem Resembles.modify (h : w.Resembles v) {slot : Nat} {b : Bunny}
    (hb : w.bunnies[slot]? = some b) {f g : Bunny → Bunny}
    (hfg : ∀ b', b'.seen = b.seen → (g b').seen = (f b).seen) :
    (v.bunnies.modify slot g).map Bunny.seen = (w.bunnies.modify slot f).map Bunny.seen := by
  apply List.ext_getElem?
  intro i
  have hi : (v.bunnies[i]?).map Bunny.seen = (w.bunnies[i]?).map Bunny.seen := by
    rw [← List.getElem?_map, ← List.getElem?_map, h.bunnies]
  rw [List.getElem?_map, List.getElem?_map, List.getElem?_modify, List.getElem?_modify]
  by_cases hs : slot = i
  · subst i
    rw [hb] at hi ⊢
    obtain ⟨b', hb', hseen⟩ := Option.map_eq_some_iff.mp hi
    rw [hb']
    simpa using hfg b' hseen
  · simpa [hs] using hi

variable {slot : Nat} {b : Bunny} {f : Bunny → Bunny} {kind : EventKind}

/-- An event of a bunny that is on the map puts it where it stands. -/
theorem Resembles.replay (h : w.Resembles v) (hb : w.bunnies[slot]? = some b)
    (hf : (f b).active = b.active) (hk : kind ≠ .exit) (message : String)
    (hg : w'.grid = if kind = .strawberry then w.grid.put (f b).x (f b).y {} else w.grid)
    (hbs : w'.bunnies = w.bunnies.modify slot f) :
    w'.Resembles (v.replay ((f b).event slot kind message)) := by
  let g (b' : Bunny) : Bunny := { b' with x := (f b).x, y := (f b).y, facing := (f b).facing }
  have hmodify : (v.bunnies.modify slot g).map Bunny.seen = w'.bunnies.map Bunny.seen := by
    rw [hbs]
    refine h.modify hb fun b' hseen => ?_
    have hactive : b'.active = (f b).active := (congrArg Bunny.active hseen).trans hf.symm
    simp only [Bunny.seen, g, hactive]
  have hreplay : v.replay ((f b).event slot kind message) =
      if kind = .strawberry then
        { v.mapBunny slot g with grid := v.grid.put (f b).x (f b).y {} }
      else v.mapBunny slot g := by
    unfold World.replay Bunny.event
    cases kind <;> first | exact absurd rfl hk | rfl
  rw [hreplay]
  by_cases hs : kind = .strawberry
  · rw [if_pos hs] at hg ⊢
    exact ⟨by rw [hg, h.grid], hmodify⟩
  · rw [if_neg hs] at hg ⊢
    exact ⟨h.grid.trans hg.symm, hmodify⟩

theorem Resembles.replay_exit (h : w.Resembles v) (hb : w.bunnies[slot]? = some b)
    (message : String) (hg : w'.grid = w.grid)
    (hbs : w'.bunnies = w.bunnies.modify slot fun b => { b with active := false }) :
    w'.Resembles (v.replay ({ b with active := false }.event slot .exit message)) where
  grid := h.grid.trans hg.symm
  bunnies := by
    rw [hbs]
    refine h.modify hb fun b' hseen => ?_
    exact congrArg (fun b : Bunny => { b with active := false }) hseen

end World

namespace Play
open World

variable {rules : Rules} {who : Actor} {p q r : Play} {v : World}

/-- A change leaves the look of a world, or logs the one event that tells of it. -/
theorem Change.resembles (h : Change rules who p q) (hw : who.isDirect = true)
    (hv : p.world.Resembles v) :
    q.events = p.events ∧ q.world.Resembles v ∨
      ∃ e, q.events.toList = p.events.toList ++ [e] ∧ q.world.Resembles (v.replay e) := by
  have hlabel : who.label = who.slot := by simpa [Actor.isDirect] using hw
  cases h with
  | tell => exact .inl ⟨rfl, hv⟩
  | tick => exact .inl ⟨by simp, hv.congr (by simp) (by simp)⟩
  | turn hact t =>
    obtain ⟨b, hb, -⟩ := exists_bunny_of_not_halted (not_halted_of_canAct hact)
    let f (b : Bunny) : Bunny := { b with facing := b.facing.turned t.quarters }
    have hlog := mapBunny_log hb f .turn ""
    rw [hlabel] at hlog
    exact .inr ⟨_, hlog, hv.replay hb (f := f) rfl (by decide) "" (by simp) (by simp [f])⟩
  | store hh f =>
    obtain ⟨b, hb, -⟩ := exists_bunny_of_not_halted hh
    let g (b : Bunny) : Bunny := { b with vars := f b.vars }
    have hlog := mapBunny_log hb g .variable ""
    rw [hlabel] at hlog
    exact .inr ⟨_, hlog, hv.replay hb (f := g) rfl (by decide) "" (by simp) (by simp [g])⟩
  | skip hh =>
    obtain ⟨b, hb, -⟩ := exists_bunny_of_not_halted hh
    have hlog := record_log p who .malformed "" hb
    rw [hlabel] at hlog
    exact .inr ⟨_, hlog, hv.replay hb (f := id) rfl (by decide) "" (by simp) (by simp)⟩
  | leave hact =>
    obtain ⟨b, hb, -⟩ := exists_bunny_of_not_halted (not_halted_of_canAct hact)
    obtain ⟨message, hlog⟩ := leave_log p who hb
    rw [hlabel] at hlog
    exact .inr ⟨_, hlog, hv.replay_exit hb message (by simp) (by simp)⟩
  | land hact x y hxy =>
    obtain ⟨b, hb, -⟩ := exists_bunny_of_not_halted (not_halted_of_canAct hact)
    obtain ⟨message, hlog⟩ := land_log rules p who hb x y
    have hkind : (p.world.grid.cell x y).kind.landing = .strawberry ↔
        (p.world.grid.cell x y).kind = .strawberry := by
      cases (p.world.grid.cell x y).kind <;> decide
    have hstays : (p.world.grid.cell x y).kind.landing ≠ .exit := by
      cases (p.world.grid.cell x y).kind <;> decide
    rw [hlabel] at hlog
    refine .inr ⟨_, hlog, hv.replay hb (by simp) hstays message ?_ (by simp)⟩
    simp only [land_grid, Grid.landed, hkind, Bunny.landed_x, Bunny.landed_y]

theorem advance_resembles {c : Code} {codes : List Code}
    (h : c.advance rules who p = (codes, q)) (hw : who.isDirect = true)
    (hv : p.world.Resembles v) :
    q.events = p.events ∧ q.world.Resembles v ∨
      ∃ e, q.events.toList = p.events.toList ++ [e] ∧ q.world.Resembles (v.replay e) := by
  obtain ⟨notices, hc⟩ := advance_change rules who p c
  rw [h] at hc
  exact hc.resembles hw hv

/-- The events `new`, told from the world `v` on, show the plays `qs`, and the play `r` at last. -/
structure Retold (p : Play) (v : World) (new : List Event) (qs : List Play) (r : Play) : Prop where
  log : r.events.toList = p.events.toList ++ new
  length : qs.length = new.length
  moment : ∀ k q, qs[k]? = some q → q.events.toList = p.events.toList ++ new.take (k + 1)
  pictures : (v.replayAll new).map picture = p.world.picture :: qs.map (·.world.picture)
  last : ∃ u, (v.replayAll new).getLast? = some u ∧ r.world.Resembles u

theorem retold_nil (hv : p.world.Resembles v) : Retold p v [] [] p where
  log := (List.append_nil _).symm
  length := rfl
  moment := nofun
  pictures := congrArg (fun s => [s]) hv.picture
  last := ⟨v, rfl, hv⟩

theorem Retold.silent {new : List Event} {qs : List Play} (h : Retold q v new qs r)
    (he : q.events = p.events) (hp : p.world.picture = q.world.picture) :
    Retold p v new qs r := by
  obtain ⟨hlog, hlength, hmoment, hpictures, hlast⟩ := h
  rw [he] at hlog hmoment
  rw [← hp] at hpictures
  exact ⟨hlog, hlength, hmoment, hpictures, hlast⟩

theorem Retold.event {new : List Event} {qs : List Play} {e : Event}
    (h : Retold q (v.replay e) new qs r) (he : q.events.toList = p.events.toList ++ [e])
    (hp : p.world.Resembles v) : Retold p v (e :: new) (q :: qs) r where
  log := by rw [h.log, he, List.append_assoc, List.singleton_append]
  length := congrArg Nat.succ h.length
  moment := by
    intro k q' hk
    cases k with
    | zero =>
      have hq : q = q' := Option.some.inj hk
      subst q'
      exact he
    | succ k =>
      rw [List.getElem?_cons_succ] at hk
      rw [h.moment k q' hk, he, List.append_assoc]
      rfl
  pictures := by
    rw [World.replayAll, List.map_cons, h.pictures, hp.picture]
    rfl
  last := by
    obtain ⟨u, hu, hr⟩ := h.last
    refine ⟨u, ?_, hr⟩
    rw [World.replayAll, List.getLast?_cons, hu]
    rfl

/-- The picture after an event is that of the play in which the event was logged. -/
theorem Retold.frame {new : List Event} {qs : List Play} (h : Retold p v new qs r) {k : Nat}
    (hk : k < new.length) : ∃ q, qs[k]? = some q ∧
      q.events.toList = p.events.toList ++ new.take (k + 1) ∧
      ((v.replayAll new).map picture)[k + 1]? = some q.world.picture := by
  have hlt : k < qs.length := by
    rw [h.length]
    exact hk
  have hq : qs[k]? = some qs[k] := List.getElem?_eq_getElem hlt
  refine ⟨qs[k], hq, h.moment k qs[k] hq, ?_⟩
  rw [h.pictures, List.getElem?_cons_succ, List.getElem?_map, hq]
  rfl

theorem Retold.final {new : List Event} {qs : List Play} (h : Retold p v new qs r) :
    ((v.replayAll new).map picture).getLast? = some r.world.picture := by
  obtain ⟨u, hu, hr⟩ := h.last
  rw [List.getLast?_map, hu]
  exact congrArg some hr.picture

/-- Bunnies that run code leave events that tell the pictures of their walk. -/
theorem Walk.retold {jobs : List (Actor × Code)} {ps : List Play} (h : Walk rules jobs p ps r)
    (hjobs : ∀ job ∈ jobs, job.1.isDirect = true) (hv : p.world.Resembles v) :
    ∃ new, Retold p v new (p.logged ps) r := by
  induction h generalizing v with
  | done => exact ⟨[], retold_nil hv⟩
  | @next who c codes rest p q ps r ha _ ih =>
    have hwho : who.isDirect = true := hjobs (who, c) (.head _)
    have hrest : ∀ job ∈ codes.map (who, ·) ++ rest, job.1.isDirect = true := by
      intro job hmem
      rcases List.mem_append.mp hmem with hmem | hmem
      · obtain ⟨c', -, rfl⟩ := List.mem_map.mp hmem
        exact hwho
      · exact hjobs job (.tail _ hmem)
    rcases advance_resembles ha hwho hv with ⟨he, hq⟩ | ⟨e, he, hq⟩
    · obtain ⟨new, hnew⟩ := ih hrest hq
      have hsilent : p.logged (q :: ps) = q.logged ps := by
        rw [logged, he, if_neg (Nat.lt_irrefl _)]
      rw [hsilent]
      exact ⟨new, hnew.silent he (hv.picture.symm.trans hq.picture)⟩
    · obtain ⟨new, hnew⟩ := ih hrest hq
      have hgrows : p.events.size < q.events.size := by
        have hsize := congrArg List.length he
        simp only [Array.length_toList, List.length_append, List.length_singleton] at hsize
        omega
      have hlogged : p.logged (q :: ps) = q :: q.logged ps := by
        rw [logged, if_pos hgrows]
      rw [hlogged]
      exact ⟨e :: new, hnew.event he hv⟩

end Play
end BunnyGrid
