import BunnyGrid.Proofs.Value.Bounded
import BunnyGrid.Proofs.Value.Order

/-! Values that compare as equal can stand in for each other: a whole number and the double of the
same size, and the two zeros, count as the same number, and so all operations treat them alike. -/
namespace BunnyGrid

namespace Double

variable {d : Double} {u : Int}

/-- The units of a double tell which it is, the two zeros apart. -/
theorem ofUnits_of_units (h : d.toUnits? = some u) (hu : u ≠ 0) : ofUnits false u = d := by
  cases d with
  | nan | infinity => cases h
  | finite negative units fits =>
    have hunits := Option.some.inj h
    have hsize : u.natAbs = units := by
      rw [← hunits]
      cases negative <;> simp
    have hsign : decide (u < 0) = negative := by
      cases negative
      · simp only [Bool.false_eq_true, if_false] at hunits
        exact decide_eq_false (by omega)
      · simp only [if_true] at hunits
        exact decide_eq_true (by omega)
    have hround := roundUnits_exact negative fits Nat.one_pos
    rw [Nat.mul_one] at hround
    rw [ofUnits, if_neg hu, hsize, hsign, hround]

/-- A double is bounded as its units say, whatever the sign of a zero. -/
theorem bounded_of_units (h : d.toUnits? = some u) : d.bounded = (ofUnits false u).bounded := by
  by_cases hu : u = 0
  · subst hu
    have hzero : (ofUnits false 0).toUnits? = some 0 := by decide +kernel
    have hsafe : Int.natAbs 0 ≤ 2 ^ 53 := by decide
    rw [bounded_of_whole (i := 0) h hsafe, bounded_of_whole (i := 0) hzero hsafe]
  · rw [ofUnits_of_units h hu]

end Double

namespace Number

variable {m n : Number} {p : Int × Int} {u : Int}

/-- A whole number is bounded as the nearest double is, on either side of the safe bound. -/
theorem bounded_int (i : Int) : (Number.int i).bounded = (Double.ofInt i).bounded := by
  have hsafe : safeBound = 2 ^ 53 := by decide
  rw [bounded, hsafe]
  split
  case isTrue hi => exact (Double.bounded_of_whole (Double.toUnits?_ofInt (fits_whole hi)) hi).symm
  case isFalse => rfl

theorem ofUnits_mul_unitsPerOne (i : Int) :
    Double.ofUnits false (i * unitsPerOne) = Double.ofInt i := by
  have hpos : (0 : Int) < unitsPerOne := Int.natCast_pos.mpr unitsPerOne_pos
  have hsign : (if i * unitsPerOne = 0 then false else decide (i * unitsPerOne < 0)) =
      decide (i < 0) := by
    split
    case isTrue hz =>
      have hi : i = 0 := (Int.mul_eq_zero.mp hz).resolve_right hpos.ne'
      rw [hi]
      rfl
    case isFalse =>
      have hlt := Int.mul_lt_mul_right hpos (b := i) (c := 0)
      rw [Int.zero_mul] at hlt
      exact decide_eq_decide.mpr hlt
  rw [Double.ofUnits, hsign, Int.natAbs_mul, Int.natAbs_natCast]
  rfl

/-- Only the place of a finite number counts for what it is bounded to. -/
theorem bounded_of_place (h : n.place? = some (0, u)) :
    n.bounded = (Double.ofUnits false u).bounded := by
  rcases n with i | (_ | negative | ⟨negative, units, fits⟩)
  · cases h
    rw [bounded_int, ofUnits_mul_unitsPerOne]
  · cases h
  · cases negative <;> cases h
  · exact Double.bounded_of_units (congrArg (Option.map Prod.snd) h)

theorem bounded_of_infinite (h : n.place? = some p) (hp : p.1 ≠ 0) : n.bounded = .zero := by
  rcases n with i | (_ | negative | ⟨negative, units, fits⟩)
  · cases h
    exact absurd rfl hp
  · cases h
  · rfl
  · cases h
    exact absurd rfl hp

theorem isNaN_of_place (h : n.place? = some p) : n.isNaN = false := by
  rcases n with i | (_ | negative | ⟨negative, units, fits⟩) <;> first | rfl | cases h

theorem isZero_of_place (h : n.place? = some p) : n.isZero = decide (p = (0, 0)) := by
  rcases n with i | (_ | negative | ⟨negative, units, fits⟩)
  · cases h
    have hone : (unitsPerOne : Int) ≠ 0 := Int.natCast_ne_zero.mpr (Nat.ne_of_gt unitsPerOne_pos)
    rw [isZero, decide_eq_decide, Prod.mk.injEq, Int.mul_eq_zero]
    exact ⟨fun hi => ⟨rfl, .inl hi⟩, fun hi => hi.2.resolve_right hone⟩
  · cases h
  · cases h
    cases negative <;> rfl
  · cases h
    cases units with
    | zero => cases negative <;> rfl
    | succ units =>
      have hunits : (if negative then -((units + 1 : Nat) : Int) else (units + 1 : Nat)) ≠ 0 := by
        split <;> omega
      exact (decide_eq_false fun hp => hunits (congrArg Prod.snd hp)).symm

/-- Numbers that compare as equal have the same place. -/
theorem exists_place_of_compare_eq (h : m.compare? n = some .eq) :
    ∃ p, m.place? = some p ∧ n.place? = some p := by
  unfold compare? at h
  cases hm : m.place? with
  | none => simp [hm] at h
  | some p =>
    cases hn : n.place? with
    | none => simp [hm, hn] at h
    | some q =>
      simp only [hm, hn, Option.some.injEq, Ordering.then_eq_eq, Std.compare_eq_iff_eq] at h
      exact ⟨p, rfl, congrArg some (Prod.ext h.1 h.2).symm⟩

/-- Numbers that compare as equal are bounded to the same number. -/
theorem bounded_of_compare_eq (h : m.compare? n = some .eq) : m.bounded = n.bounded := by
  obtain ⟨⟨side, u⟩, hm, hn⟩ := exists_place_of_compare_eq h
  by_cases hside : side = 0
  · subst hside
    rw [bounded_of_place hm, bounded_of_place hn]
  · rw [bounded_of_infinite hm hside, bounded_of_infinite hn hside]

end Number

namespace Scalar

variable {a b : Scalar}

theorem compare?_of_eq_holds (h : CompareOp.eq.holds a b = true) : a.compare? b = some .eq :=
  beq_iff_eq.mp h

/-- Only numbers compare as equal without being the same. -/
theorem eq_or_numbers (h : a.compare? b = some .eq) :
    a = b ∨ ∃ m n, a = .number m ∧ b = .number n ∧ m.compare? n = some .eq := by
  cases a with
  | bool x =>
    cases b with
    | bool y => exact .inl (congrArg bool (Std.compare_eq_iff_eq.mp (Option.some.inj h)))
    | number | text => cases h
  | number m =>
    cases b with
    | number n => exact .inr ⟨m, n, rfl, rfl, h⟩
    | bool | text => cases h
  | text s =>
    cases b with
    | text t => exact .inl (congrArg text (Std.compare_eq_iff_eq.mp (Option.some.inj h)))
    | bool | number => cases h

theorem toNumber_of_compare_eq (h : a.compare? b = some .eq) : a.toNumber = b.toNumber := by
  rcases eq_or_numbers h with rfl | ⟨m, n, rfl, rfl, hmn⟩
  · rfl
  · exact Number.bounded_of_compare_eq hmn

theorem truthy_of_compare_eq (h : a.compare? b = some .eq) : a.truthy = b.truthy := by
  rcases eq_or_numbers h with rfl | ⟨m, n, rfl, rfl, hmn⟩
  · rfl
  · obtain ⟨p, hm, hn⟩ := Number.exists_place_of_compare_eq hmn
    simp only [truthy, Number.isZero_of_place hm, Number.isZero_of_place hn,
      Number.isNaN_of_place hm, Number.isNaN_of_place hn]

/-- Values that compare as equal count as the same number, have the same whole part and the same
truth, and arithmetic with any other value does not tell them apart. -/
theorem equal_interchangeable (h : CompareOp.eq.holds a b = true) :
    a.toNumber = b.toNumber ∧ a.toCount = b.toCount ∧ a.truthy = b.truthy ∧
    ∀ op (c : Data), Data.arith op (.scalar a) c = Data.arith op (.scalar b) c ∧
      Data.arith op c (.scalar a) = Data.arith op c (.scalar b) := by
  have hnumber := toNumber_of_compare_eq (compare?_of_eq_holds h)
  have htruthy := truthy_of_compare_eq (compare?_of_eq_holds h)
  refine ⟨hnumber, congrArg Number.truncate hnumber, htruthy, fun op c => ?_⟩
  constructor <;> simp only [Data.arith, Data.toNumber, hnumber]

/-- A whole number beyond the safe bound, and the same as a double. -/
def large : Scalar := .int (2 ^ 53 + 2)

def largeDouble : Scalar := .number (.double (.ofInt (2 ^ 53 + 2)))

theorem equal_interchangeable_large : CompareOp.eq.holds large largeDouble = true ∧
    large.toNumber = largeDouble.toNumber ∧ large.toCount = largeDouble.toCount ∧
    large.truthy = largeDouble.truthy ∧
    ∀ op (c : Data), Data.arith op (.scalar large) c = Data.arith op (.scalar largeDouble) c ∧
      Data.arith op c (.scalar large) = Data.arith op c (.scalar largeDouble) := by
  have heq : CompareOp.eq.holds large largeDouble = true := by decide +kernel
  exact ⟨heq, equal_interchangeable heq⟩

end Scalar
end BunnyGrid
