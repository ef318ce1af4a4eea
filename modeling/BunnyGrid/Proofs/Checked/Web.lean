import BunnyGrid.Proofs.Checked.Session
import BunnyGrid.Proofs.Web.Map

/-! The server with every lookup checked. Whatever requests came before, no request but one for a
map that cannot be loaded makes it fail. -/
namespace BunnyGrid

namespace Session

/-- There is a map and a bunny on it. -/
structure IsOpen (s : Session) : Prop where
  stage : ∃ stage, s.stage = some stage
  peopled : s.Peopled

theorem loadBoard_isOpen (s : Session) (board : Board) : (s.loadBoard board).session.IsOpen :=
  ⟨⟨_, rfl⟩, loadBoard_peopled s board⟩

theorem IsOpen.apply {s : Session} (h : s.IsOpen) (op : Operation) : (s.apply op).IsOpen := by
  refine ⟨?_, apply_peopled s op h.peopled⟩
  obtain ⟨stage, hs⟩ := h.stage
  rcases apply_cases s op with hleads | ⟨board, h⟩ | ⟨stage, slot, score, -, h⟩
  · obtain ⟨stage', hs', -⟩ := hleads.exists_after hs
    exact ⟨stage', hs'⟩
  · rw [h]
    exact ⟨_, rfl⟩
  · rw [h]
    exact ⟨_, rfl⟩

end Session

namespace Web

namespace Server

/-- The route that a request takes. -/
def route? (r : Request) : Option Route :=
  Route.ofPath? (String.ofList (r.path.toList.takeWhile (· ≠ '?')))

/-- A server after requests in order. -/
def after (s : Server) (history : List Request) : Server :=
  history.foldl (fun s r => (s.handle r).1) s

namespace Checked

/-- The state to show, which there is none of without a map. -/
def state (s : Server) : Except Fault Data :=
  match s.session.stage with
  | some stage => .ok stage.world.toData
  | none => .error .noMap

def succeeded (fields : List (String × Data)) : Response :=
  .ok (.record (("success", .bool true) :: fields))

/-- Loading a map fails on an infinite number. -/
def postMap (s : Server) (d : Data) : Except Fault (Server × Response) :=
  if (s.postMap d).2.status = 500 then .error .overflow else .ok (s.postMap d)

def postReset (s : Server) : Except Fault (Server × Response) := do
  let s := { s with session := s.session.reset }
  let shown ← state s
  .ok (s, succeeded [("state", shown)])

def postRun (s : Server) : Data → Except Fault (Server × Response)
  | .record fields => do
    let reply ← Session.Checked.run s.session (.ofData (Data.field "program" fields))
      (.ofData (Data.field "program2" fields))
    let r := reply.value
    let s := { s with session := reply.session }.addLog s!"Run: {r.status.name} ({r.message})"
    let shown ← state s
    .ok (s, succeeded [("result", r.toData), ("state", shown)])
  | _ => .ok (s, noProgram)

def postStep (s : Server) : Data → Except Fault (Server × Response)
  | .record fields => do
    let reply ← Session.Checked.step s.session (.ofData (Data.field "program" fields))
    let s := { s with session := reply.session }
    let shown ← state s
    .ok (s, succeeded
      [ ("result", reply.value.toData), ("currentStep", .int s.session.cursor),
        ("state", shown) ])
  | _ => .ok (s, noProgram)

def answer (s : Server) (d : Data) : Route → Except Fault (Server × Response)
  | .index => .ok (s, ⟨200, .page⟩)
  | .state => do
    let shown ← state s
    .ok (s, .ok shown)
  | .samples => .ok (s, .ok (.record Program.samples))
  | .logs => .ok (s, .ok (.list (s.log.map .text)))
  | .map => postMap s d
  | .reset => postReset s
  | .run => postRun s d
  | .step => postStep s d

def handle (s : Server) (r : Request) : Except Fault (Server × Response) :=
  match route? r with
  | none => .ok (s, ⟨404, .page⟩)
  | some route =>
    if !route.allows r.method then .ok (s, ⟨405, .page⟩)
    else if r.method = "OPTIONS" then .ok (s, ⟨200, .page⟩)
    else answer s r.data route

end Checked

variable {s : Server} {d : Data} {route : Route}

@[simp] theorem addLog_session (s : Server) (line : String) :
    (s.addLog line).session = s.session := by
  rw [addLog]

/-- Loading a map leaves the session as it was or does one operation on it. -/
theorem postMap_session (s : Server) (d : Data) : (s.postMap d).1.session = s.session ∨
    ∃ op, (s.postMap d).1.session = s.session.apply op := by
  cases hpresent : d.isPresent with
  | false =>
    refine .inr ⟨.install .sample, ?_⟩
    simp only [postMap, hpresent, Bool.false_eq_true, if_false]
    rfl
  | true =>
    cases d with
    | record fields =>
      have happly : s.session.apply (.load (.record fields)) =
        s.session.kept (s.session.load (.record fields)) := rfl
      simp only [postMap, hpresent, if_true]
      cases hload : s.session.load (.record fields) with
      | error fault => cases fault <;> exact .inl (by simp only [addLog_session])
      | ok reply =>
        refine .inr ⟨.load (.record fields), ?_⟩
        rw [happly, hload]
        rfl
    | _ => simp only [postMap, hpresent, if_true, true_or]

theorem answer_session (s : Server) (d : Data) (route : Route) :
    (s.answer d route).1.session = s.session ∨
      ∃ op, (s.answer d route).1.session = s.session.apply op := by
  cases route with
  | index | state | samples | logs => exact .inl rfl
  | map => exact postMap_session s d
  | reset => exact .inr ⟨.reset, rfl⟩
  | run =>
    cases d with
    | record fields => exact .inr ⟨.run _ _, rfl⟩
    | _ => exact .inl rfl
  | step =>
    cases d with
    | record fields => exact .inr ⟨.step _, rfl⟩
    | _ => exact .inl rfl

/-- A request is answered with a page that tells of no failure, or its route answers. -/
theorem handle_cases (s : Server) (r : Request) :
    (∃ status, status ≠ 500 ∧ s.handle r = (s, ⟨status, .page⟩) ∧
      Checked.handle s r = .ok (s, ⟨status, .page⟩)) ∨
    ∃ route, route? r = some route ∧ s.handle r = s.answer r.data route ∧
      Checked.handle s r = Checked.answer s r.data route := by
  unfold Checked.handle
  have hhandle : s.handle r = match route? r with
    | none => (s, ⟨404, .page⟩)
    | some route =>
      if !route.allows r.method then (s, ⟨405, .page⟩)
      else if r.method = "OPTIONS" then (s, ⟨200, .page⟩)
      else s.answer r.data route := rfl
  rw [hhandle]
  cases route? r with
  | none => exact .inl ⟨404, by decide, rfl, rfl⟩
  | some route =>
    dsimp only
    split
    · exact .inl ⟨405, by decide, rfl, rfl⟩
    split
    · exact .inl ⟨200, by decide, rfl, rfl⟩
    · exact .inr ⟨route, rfl, rfl, rfl⟩

/-- No request takes the map away. -/
theorem handle_isOpen (h : s.session.IsOpen) (r : Request) : (s.handle r).1.session.IsOpen := by
  rcases handle_cases s r with ⟨status, -, hr, -⟩ | ⟨route, -, hr, -⟩
  · rw [hr]
    exact h
  · rw [hr]
    rcases answer_session s r.data route with hkept | ⟨op, hop⟩
    · rw [hkept]
      exact h
    · rw [hop]
      exact h.apply op

theorem after_isOpen (h : s.session.IsOpen) (history : List Request) :
    (s.after history).session.IsOpen := by
  induction history generalizing s with
  | nil => exact h
  | cons r rest ih => exact ih (handle_isOpen h r)

namespace Checked

open Play.Checked (ok_bind)

theorem state_eq (h : s.session.IsOpen) : state s = .ok s.state := by
  obtain ⟨stage, hs⟩ := h.stage
  unfold state Server.state Session.world?
  rw [hs]
  rfl

theorem postReset_eq (h : s.session.IsOpen) : postReset s = .ok s.postReset := by
  let after : Server := { s with session := s.session.reset }
  have hafter : after.session.IsOpen := h.apply .reset
  unfold postReset
  dsimp only
  rw [state_eq hafter]
  rfl

theorem postRun_eq (h : s.session.IsOpen) (d : Data) : postRun s d = .ok (s.postRun d) := by
  cases d with
  | record fields =>
    let first : Program := .ofData (Data.field "program" fields)
    let second : Program := .ofData (Data.field "program2" fields)
    let reply := s.session.run first second
    have hrun : Session.Checked.run s.session first second = .ok reply :=
      Session.Checked.run_eq h.peopled first second
    let after (line : String) : Server := { s with session := reply.session }.addLog line
    have hafter (line : String) : (after line).session.IsOpen := h.apply (.run first second)
    rw [postRun, hrun, ok_bind]
    dsimp only
    rw [state_eq (hafter _)]
    rfl
  | _ => rfl

theorem postStep_eq (h : s.session.IsOpen) (d : Data) : postStep s d = .ok (s.postStep d) := by
  cases d with
  | record fields =>
    let program : Program := .ofData (Data.field "program" fields)
    let reply := s.session.step program
    have hstep : Session.Checked.step s.session program = .ok reply :=
      Session.Checked.step_eq h.peopled program
    let after : Server := { s with session := reply.session }
    have hafter : after.session.IsOpen := h.apply (.step program)
    rw [postStep, hstep, ok_bind]
    dsimp only
    rw [state_eq hafter]
    rfl
  | _ => rfl

/-- Only a map that cannot be loaded makes an answer fail. -/
theorem answer_eq (h : s.session.IsOpen) (d : Data) (route : Route)
    (hmap : route = .map → (s.postMap d).2.status ≠ 500) :
    answer s d route = .ok (s.answer d route) := by
  cases route with
  | index | samples | logs => rfl
  | state =>
    rw [answer, state_eq h]
    rfl
  | map => exact if_neg (hmap rfl)
  | reset => exact postReset_eq h
  | run => exact postRun_eq h d
  | step => exact postStep_eq h d

end Checked

/-- No answer but one on a map tells of a failure. -/
theorem answer_status (s : Server) (d : Data) {route : Route} (hroute : route ≠ .map) :
    (s.answer d route).2.status ≠ 500 := by
  have hok : 200 ≠ 500 := by decide
  have hrejected : 400 ≠ 500 := by decide
  cases route with
  | map => exact absurd rfl hroute
  | index | state | samples | logs | reset => exact hok
  | run | step =>
    cases d with
    | record => exact hok
    | _ => exact hrejected

/-- After any requests no request fails, and none is answered with a failure, but for a map that is
not loaded. -/
theorem handle_never_fails (limit : Int) (history : List Request) (r : Request)
    (hmap : route? r = some .map → (((start limit).after history).handle r).2.status = 200) :
    Checked.handle ((start limit).after history) r =
      .ok (((start limit).after history).handle r) ∧
    (((start limit).after history).handle r).2.status ≠ 500 := by
  have hopen : ((start limit).after history).session.IsOpen :=
    after_isOpen (Session.loadBoard_isOpen _ _) history
  generalize (start limit).after history = s at hmap hopen
  rcases handle_cases s r with ⟨status, hstatus, hr, hchecked⟩ | ⟨route, hroute, hr, hchecked⟩
  · rw [hchecked, hr]
    exact ⟨rfl, hstatus⟩
  · rw [hchecked, hr]
    have hstatus : (s.answer r.data route).2.status ≠ 500 := by
      by_cases hkind : route = .map
      · rw [← hr, hmap (hkind ▸ hroute)]
        decide
      · exact answer_status s r.data hkind
    refine ⟨Checked.answer_eq hopen r.data route fun hkind => ?_, hstatus⟩
    subst hkind
    exact hstatus

/-- A map that is loaded between two runs. -/
theorem handle_never_fails_reload :
    let run : Request :=
      ⟨"POST", "/api/run", some ⟨"application/json", "\x7b\"program\": [1]\x7d"⟩⟩
    let load : Request := ⟨"POST", "/api/map", none⟩
    let s := (start 5).after [run, load, run]
    route? load = some .map ∧ (s.handle load).2.status = 200 ∧
      Checked.handle s load = .ok (s.handle load) := by
  intro run load s
  have hroute : route? load = some .map := by decide +kernel
  have hstatus : (s.handle load).2.status = 200 := by
    rw [handle_map rfl rfl]
    rfl
  exact ⟨hroute, hstatus, (handle_never_fails 5 [run, load, run] load fun _ => hstatus).1⟩

end Server
end Web
end BunnyGrid
