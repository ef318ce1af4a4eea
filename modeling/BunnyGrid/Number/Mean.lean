import BunnyGrid.Value.Arithmetic

/-! Means of numbers. Doubles are added up in eight lanes, and long lists by halves, so the order
of the roundings is part of the rule. -/
namespace BunnyGrid

namespace Double

/-- The sum from the left, from a start. -/
def sumFrom (start : Double) (xs : List Double) : Double := xs.foldl add start

/-- The sum of every eighth item from a place on. -/
def lane (xs : Array Double) (rounds i : Nat) : Double :=
  sumFrom (xs.getD i zero) ((List.range (rounds - 1)).map fun k => xs.getD (8 * (k + 1) + i) zero)

/-- The sum of a block of at least eight items: eight lanes joined by pairs, then what is left
over. -/
def laneSum (xs : Array Double) : Double :=
  let rounds := xs.size / 8
  let l := lane xs rounds
  let lanes := ((l 0).add (l 1)).add ((l 2).add (l 3)) |>.add
    (((l 4).add (l 5)).add ((l 6).add (l 7)))
  sumFrom lanes (xs.toList.drop (8 * rounds))

/-- The sum by halves down to blocks of at most 128 items; the count bounds the halving. -/
def blockSum : Nat → List Double → Double
  | 0, xs => sumFrom zero xs
  | n + 1, xs =>
    if xs.length < 8 then sumFrom zero xs
    else if xs.length ≤ 128 then laneSum xs.toArray
    else
      let half := xs.length / 2 / 8 * 8
      (blockSum n (xs.take half)).add (blockSum n (xs.drop half))

/-- The mean of doubles. -/
def mean (xs : List Double) : Double :=
  (zero.add (blockSum xs.length xs)).div (ofInt xs.length)

/-- The greatest of doubles; NaN if one of them is. -/
def greatest (xs : List Double) : Double :=
  xs.tail.foldl (fun a b =>
    if a.isNaN then a
    else if b.isNaN ∨ (Number.double a).compare? (.double b) = some .lt then b else a)
    (xs.headD nan)

end Double
end BunnyGrid
