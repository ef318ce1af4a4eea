import Mathlib
import BunnyGrid.Proofs.World.Fault
import BunnyGrid.Web.Server

/-! How a request to load a map is answered: a bad map is reported and changes nothing, unless an
infinite number is met before any other fault. That one is the server's own failure. -/
namespace BunnyGrid.Web

namespace Server

variable {s : Server} {r : Request} {fields : List (String × Data)}

theorem handle_map (hmethod : r.method = "POST") (hpath : r.path = "/api/map") :
    s.handle r = s.postMap r.data := by
  have hroute : Route.ofPath? (String.ofList ("/api/map".toList.takeWhile (· ≠ '?'))) =
      some .map := by decide +kernel
  unfold handle
  rw [hpath]
  dsimp only
  rw [hroute, hmethod]
  rfl

section Answers

/-- An empty record loads the sample map. -/
theorem postMap_nil (s : Server) : (s.postMap (.record [])).2.status = 200 := rfl

variable (hne : fields ≠ [])
include hne

theorem isPresent_of_ne_nil : (Data.record fields).isPresent = true := by
  simpa [Data.isPresent] using hne

theorem postMap_of_ok {b : Board} (h : Board.ofData (.record fields) = .ok b) :
    (s.postMap (.record fields)).2.status = 200 := by
  unfold postMap Session.load
  rw [isPresent_of_ne_nil hne]
  dsimp only
  rw [h]
  rfl

theorem postMap_of_infinite (h : Board.ofData (.record fields) = .error .infinite) :
    s.postMap (.record fields) = (s, ⟨500, .page⟩) := by
  unfold postMap Session.load
  rw [isPresent_of_ne_nil hne]
  dsimp only
  rw [h]
  rfl

/-- Only the log tells of a map that is rejected. -/
theorem postMap_of_reported {fault : BoardFault} (h : Board.ofData (.record fields) = .error fault)
    (hreported : fault.isReported = true) : s.postMap (.record fields) =
      (s.addLog s!"Rejected map: {fault.message}",
        .rejected s!"Invalid map: {fault.message}") := by
  unfold postMap Session.load
  rw [isPresent_of_ne_nil hne]
  dsimp only
  rw [h]
  cases fault with
  | notRecord | infinite => cases hreported
  | _ => rfl

end Answers

/-- A request to load a map is answered with success or with the fault of a bad map, as long as the
numbers that the map is read from are finite; where one is not, no board is made. The server fails
exactly if reading the map comes upon an infinite number. Whatever is not a success leaves the
session as it was, and a failure leaves the log too. -/
theorem bad_map_reported (s : Server) (hmethod : r.method = "POST") (hpath : r.path = "/api/map")
    (hdata : r.data = .record fields) :
    let reply := s.handle r
    let parsed := Board.ofData (.record fields)
    ((∀ d ∈ Board.measures fields, d.isInfinite = false) →
      ((∃ b, parsed = .ok b) ∨ ∃ fault, parsed = .error fault ∧ fault.isReported = true) ∧
      (reply.2.status = 200 ∨ reply.2.status = 400)) ∧
    ((∃ b, parsed = .ok b) → ∀ d ∈ Board.measures fields, d.isInfinite = false) ∧
    (reply.2.status = 200 ↔ fields = [] ∨ ∃ b, parsed = .ok b) ∧
    (reply.2.status = 500 ↔ parsed = .error .infinite) ∧
    (reply.2.status ≠ 200 → reply.1.session = s.session) ∧
    (reply.2.status = 500 → reply.1 = s) := by
  intro reply parsed
  have hreply : reply = s.postMap (.record fields) := by
    rw [← hdata]
    exact handle_map hmethod hpath
  have hmeasured : Measured (Board.measures fields) parsed := Board.ofFields_measured fields
  rw [hreply]
  by_cases hnil : fields = []
  · subst hnil
    have hstatus := postMap_nil s
    have hparsed : parsed = .error .noCells := rfl
    simp [hstatus, hparsed, BoardFault.isReported]
  · cases hparsed : parsed with
    | ok b =>
      have hstatus := postMap_of_ok (s := s) hnil hparsed
      have hfinite := hmeasured.finite b hparsed
      simpa [hstatus] using hfinite
    | error fault =>
      rcases hmeasured.reported fault hparsed with hreported | ⟨rfl, d, hd, hinf⟩
      · have hanswer := postMap_of_reported (s := s) hnil hparsed hreported
        have hrejected : fault ≠ .infinite := by
          rintro rfl
          cases hreported
        simp [hanswer, hreported, hrejected, hnil, Response.rejected, addLog]
      · have hanswer := postMap_of_infinite (s := s) hnil hparsed
        have hnot : ¬ ∀ d ∈ Board.measures fields, d.isInfinite = false := fun h => by
          rw [h d hd] at hinf
          cases hinf
        simp [hanswer, hnot, hnil]

/-- A map that is fine if its size is one. -/
def sizedFields (size : Double) : List (String × Data) :=
  [ ("mapData", .list [.list [.null]]), ("gridSize", .scalar (.number (.double size))),
    ("bunnyPosition", .record [("x", .int 0), ("y", .int 0)]) ]

def sizedRequest (size : String) : Request where
  method := "POST"
  path := "/api/map"
  body := some
    { contentType := "application/json"
      text := "\x7b\"mapData\": [[null]], \"gridSize\": " ++ size ++
        ", \"bunnyPosition\": \x7b\"x\": 0, \"y\": 0\x7d\x7d" }

theorem data_sizedRequest_nan : (sizedRequest "NaN").data = .record (sizedFields .nan) := by cbv

theorem data_sizedRequest_infinity :
    (sizedRequest "Infinity").data = .record (sizedFields (.infinity false)) := by cbv

/-- A size that is not a number is a bad map's. -/
theorem bad_map_reported_nan :
    (sizedRequest "NaN").method = "POST" ∧ (sizedRequest "NaN").path = "/api/map" ∧
      (sizedRequest "NaN").data = .record (sizedFields .nan) ∧
      ((start 1000).handle (sizedRequest "NaN")).2.status = 400 ∧
      ((start 1000).handle (sizedRequest "NaN")).1.session = (start 1000).session := by
  have hmethod : (sizedRequest "NaN").method = "POST" := rfl
  have hpath : (sizedRequest "NaN").path = "/api/map" := rfl
  have hfinite : ∀ d ∈ Board.measures (sizedFields .nan), d.isInfinite = false := by decide
  have hparsed : Board.ofData (.record (sizedFields .nan)) = .error (.badSize _) := rfl
  obtain ⟨hreported, -, haccepted, -, hkept, -⟩ :=
    bad_map_reported (start 1000) hmethod hpath data_sizedRequest_nan
  have hstatus : ((start 1000).handle (sizedRequest "NaN")).2.status ≠ 200 := by
    intro h
    rcases haccepted.mp h with hnil | ⟨b, hb⟩
    · cases hnil
    · rw [hparsed] at hb
      cases hb
  exact ⟨hmethod, hpath, data_sizedRequest_nan, (hreported hfinite).2.resolve_left hstatus,
    hkept hstatus⟩

/-- At an infinite size the server fails. -/
theorem infinite_size_fails :
    Board.ofData (.record (sizedFields (.infinity false))) = .error .infinite ∧
      ((start 1000).handle (sizedRequest "Infinity")).2.status = 500 := by
  have hparsed : Board.ofData (.record (sizedFields (.infinity false))) = .error .infinite := rfl
  have hne : sizedFields (.infinity false) ≠ [] := List.cons_ne_nil _ _
  refine ⟨hparsed, ?_⟩
  rw [handle_map rfl rfl, data_sizedRequest_infinity, postMap_of_infinite hne hparsed]

end Server
end BunnyGrid.Web
