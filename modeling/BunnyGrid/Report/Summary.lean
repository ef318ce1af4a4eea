import BunnyGrid.Number.Mean

/-! A summary of saved runs: how many there are, how well they did, and how they ended. -/
namespace BunnyGrid

/-- Why saved runs have no summary. -/
inductive SummaryFault
  /-- A saved run is no record. -/
  | notRecord
  /-- A score or count is no number, or a status is no plain value. -/
  | badField
  /-- The best score is NaN. -/
  | noBest
  /-- The best score is infinite. -/
  | infiniteBest
  /-- The mean is past every double. -/
  | hugeMean
  deriving DecidableEq

namespace SummaryFault

def message : SummaryFault → String
  | .notRecord => "a saved run is not a record"
  | .badField => "a saved run has a field of the wrong kind"
  | .noBest => "cannot convert float NaN to integer"
  | .infiniteBest => "cannot convert float infinity to integer"
  | .hugeMean => "integer division result too large for a float"

end SummaryFault

namespace Summary

/-- A number of a saved run. -/
def number? : Data → Option Number
  | .scalar (.number n) => some n
  | .scalar (.bool b) => some (.int (if b then 1 else 0))
  | _ => none

/-- A column of numbers: words of 64 bits, doubles, or numbers of any size. -/
inductive Column
  | words (ns : List Int)
  | doubles (xs : List Double)
  | wide (ns : List Number)

namespace Column

/-- The narrowest column that holds numbers. Signed and unsigned words do not mix. -/
def ofNumbers (ns : List Number) : Column :=
  let whole := ns.filterMap fun
    | .int i => some i
    | .double _ => none
  let signedEnd : Int := (1 <<< 63 : Nat)
  let unsignedEnd : Int := (1 <<< 64 : Nat)
  if whole.any fun i => i < -signedEnd || unsignedEnd ≤ i then .wide ns
  else if whole.length < ns.length || (whole.any (· < 0) && whole.any (signedEnd ≤ ·)) then
    .doubles (ns.map Number.toDouble)
  else .words whole

/-- The mean of a column. Numbers of any size are added up exactly as long as they are whole. -/
def mean : Column → Except SummaryFault Double
  | words ns => .ok (Double.mean (ns.map Double.ofInt))
  | doubles xs => .ok (Double.mean xs)
  | wide ns =>
    match ns.tail.foldl (ArithOp.raw .add) (ns.headD .zero) with
    | .int sum =>
      let m := Double.ofRatio (sum < 0) sum.natAbs ns.length
      if m.isFinite then .ok m else .error .hugeMean
    | .double sum => .ok (sum.div (.ofInt ns.length))

/-- The whole part of a number. -/
private def whole : Number → Except SummaryFault Int
  | .int i => .ok i
  | .double d =>
    match d.truncate? with
    | some i => .ok i
    | none => .error (if d.isNaN then .noBest else .infiniteBest)

/-- The whole part of the greatest number of a column. Among numbers of any size one that is not
at least the next gives way to it, and so does NaN. -/
def best : Column → Except SummaryFault Int
  | words ns => .ok (ns.tail.foldl max (ns.headD 0))
  | doubles xs => whole (.double (Double.greatest xs))
  | wide ns =>
    let atLeast (a b : Number) : Bool := (a.compare? b).any (· ≠ .lt)
    whole (ns.tail.foldl (fun a b => if atLeast a b then a else b) (ns.headD .zero))

end Column

/-- Whether two statuses count as one: true and one are, and so are all NaN. -/
def sameStatus (a b : Data) : Bool :=
  match a, b with
  | .null, .null => true
  | .scalar (.text s), .scalar (.text t) => s = t
  | a, b =>
    match number? a, number? b with
    | some m, some n => m.compare? n = some .eq || (m.isNaN && n.isNaN)
    | _, _ => false

/-- The name of a status; a value that is no text is named as in JSON. -/
def statusName : Data → Except SummaryFault String
  | .null => .ok "null"
  | .scalar (.text s) => .ok s
  | .scalar (.bool b) => .ok (if b then "true" else "false")
  | .scalar (.number n) => .ok (n.text jsonNumbers)
  | _ => .error .badField

/-- Count one more run of a status. -/
def tally (counts : List (Data × Nat)) (status : Data) : List (Data × Nat) :=
  match counts with
  | [] => [(status, 1)]
  | (s, n) :: rest =>
    if sameStatus s status then (s, n + 1) :: rest else (s, n) :: tally rest status

/-- One field of every run. -/
def column (name : String) (runs : List (List (String × Data))) :
    Except SummaryFault Column := do
  let values ← runs.mapM fun fields =>
    ((number? ((Data.field? name fields).getD (.int 0))).map .ok).getD (.error .badField)
  .ok (.ofNumbers values)

/-- The fields of a saved run. -/
def fieldsOf : Data → Except SummaryFault (List (String × Data))
  | .record fields => .ok fields
  | _ => .error .notRecord

/-- The summary of saved runs. Statuses come in the order in which they first occur. -/
def ofRuns (saved : List Data) : Except SummaryFault Data := do
  let runs ← saved.mapM fieldsOf
  let statuses := runs.map fun fields => (Data.field? "status" fields).getD (.text "unknown")
  let names ← (statuses.foldl tally []).mapM fun (status, n) => do
    .ok ((← statusName status), Data.int n)
  let totals ← column "totalScore" runs
  let meanScore ← totals.mean
  let best ← totals.best
  let steps ← column "steps" runs
  let meanSteps ← steps.mean
  .ok <| .record
    [ ("num_runs", .int runs.length), ("mean_score", .scalar (.number (.double meanScore))),
      ("best_score", .int best), ("mean_steps", .scalar (.number (.double meanSteps))),
      ("statuses", .record names) ]

end Summary
end BunnyGrid
