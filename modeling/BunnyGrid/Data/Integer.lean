import BunnyGrid.Data.Basic

/-! Whole numbers out of data: a number loses its fraction, and a text has to be a whole number's
numeral. -/
namespace BunnyGrid.Data

/-- Why data gives no whole number. -/
inductive IntegerError
  /-- It is not a number or a numeral. -/
  | noNumber
  /-- It is infinite. -/
  | infinite
  deriving DecidableEq

/-- The whole number that data stands for, its fraction dropped. -/
def toInt : Data → Except IntegerError Int
  | .scalar (.bool b) => .ok (if b then 1 else 0)
  | .scalar (.number (.int i)) => .ok i
  | .scalar (.number (.double (.infinity _))) => .error .infinite
  | .scalar (.number (.double d)) => (d.truncate?.map .ok).getD (.error .noNumber)
  | .scalar (.text s) => ((Numeral.int? s).map .ok).getD (.error .noNumber)
  | _ => .error .noNumber

end BunnyGrid.Data
