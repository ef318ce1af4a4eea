import BunnyGrid.Proofs.World.Board

/-! Why data is no board. Every fault is a bad map's and can be reported as one, but for a number
without bound, which no whole number is read from. -/
namespace BunnyGrid

/-- Whether a fault tells what is wrong with a map. -/
def BoardFault.isReported : BoardFault → Bool
  | .notRecord | .infinite => false
  | _ => true

/-- Whether data is an infinite number. -/
def Data.isInfinite : Data → Bool
  | .scalar (.number (.double (.infinity _))) => true
  | _ => false

/-- The numbers that say where a bunny starts. -/
def Start.measures : Data → List Data
  | .record fields => [Data.field "x" fields, Data.field "y" fields]
  | _ => []

/-- The numbers that a map is read from, in the order in which they are looked at: the size, the
coordinates of the starts and the block limit. -/
def Board.measures (fields : List (String × Data)) : List Data :=
  Data.field "gridSize" fields :: Start.measures (Data.field "bunnyPosition" fields) ++
    Start.measures (Data.field "bunnyPosition2" fields) ++ [Data.field "blockLimit" fields]

/-- What is read from some numbers: a value only if all of them are finite, and a fault that is
reported unless one of them is infinite. -/
structure Measured {α : Type} (numbers : List Data) (x : Except BoardFault α) : Prop where
  finite : ∀ a, x = .ok a → ∀ d ∈ numbers, d.isInfinite = false
  reported : ∀ fault, x = .error fault →
    fault.isReported = true ∨ fault = .infinite ∧ ∃ d ∈ numbers, d.isInfinite = true

namespace Measured

variable {α β : Type} {numbers rest : List Data} {x : Except BoardFault α} {fault : BoardFault}

theorem of_finite (h : ∀ d ∈ numbers, d.isInfinite = false) (a : α) :
    Measured numbers (.ok a : Except BoardFault α) := ⟨fun _ _ => h, nofun⟩

theorem of_finite_one {d : Data} (h : d.isInfinite = false) (a : α) :
    Measured [d] (.ok a : Except BoardFault α) := of_finite (by simpa using h) a

theorem ok (a : α) : Measured [] (.ok a : Except BoardFault α) := ⟨nofun, nofun⟩

theorem error (h : fault.isReported = true) :
    Measured numbers (.error fault : Except BoardFault α) :=
  ⟨nofun, fun e he => .inl (by cases he; exact h)⟩

/-- What is read after a value may look at more numbers. -/
theorem bind {f : α → Except BoardFault β} (hx : Measured numbers x)
    (hf : ∀ a, x = .ok a → Measured rest (f a)) : Measured (numbers ++ rest) (x >>= f) := by
  cases x with
  | error e =>
    refine ⟨nofun, fun fault h => ?_⟩
    cases h
    refine (hx.reported e rfl).imp_right fun ⟨he, d, hd, hinf⟩ => ?_
    exact ⟨he, d, List.mem_append_left rest hd, hinf⟩
  | ok a =>
    have ha := hf a rfl
    refine ⟨fun b h d hd => ?_, fun fault h => ?_⟩
    · rcases List.mem_append.mp hd with hd | hd
      · exact hx.finite a rfl d hd
      · exact ha.finite b h d hd
    · refine (ha.reported fault h).imp_right fun ⟨he, d, hd, hinf⟩ => ?_
      exact ⟨he, d, List.mem_append_right numbers hd, hinf⟩

theorem mapM {f : β → Except BoardFault α} (hf : ∀ b, Measured [] (f b)) (bs : List β) :
    Measured [] (bs.mapM f) := by
  induction bs with
  | nil => exact ok []
  | cons b bs ih =>
    rw [List.mapM_cons]
    exact (hf b).bind fun a _ => ih.bind fun as _ => ok (a :: as)

theorem map_iff {f : α → β} : Measured numbers (f <$> x) ↔ Measured numbers x := by
  cases x with
  | error e =>
    exact ⟨fun h => ⟨nofun, fun fault he => h.reported fault (by cases he; rfl)⟩,
      fun h => ⟨nofun, fun fault he => h.reported fault (by cases he; rfl)⟩⟩
  | ok a =>
    exact ⟨fun h => ⟨fun _ _ => h.finite (f a) rfl, nofun⟩,
      fun h => ⟨fun _ _ => h.finite a rfl, nofun⟩⟩

theorem vector_mapM {n : Nat} {f : β → Except BoardFault α} (hf : ∀ b, Measured [] (f b))
    (bs : Vector β n) : Measured [] (bs.mapM f) := by
  have hlist := map_iff (f := List.toArray).mpr (mapM hf bs.toList)
  rw [← toArray_vector_mapM] at hlist
  exact map_iff.mp hlist

end Measured

section Readers

theorem Data.toInt_eq_infinite_iff (d : Data) :
    d.toInt = .error .infinite ↔ d.isInfinite = true := by
  have hnone {o : Option Int} :
      (o.map Except.ok).getD (.error IntegerError.noNumber) ≠ .error .infinite := by
    cases o <;> simp
  cases d with
  | null | list | record => simp [toInt, isInfinite]
  | scalar v =>
    cases v with
    | bool b => simp [toInt, isInfinite]
    | text s => simp [toInt, isInfinite, hnone]
    | number n =>
      cases n with
      | int i => simp [toInt, isInfinite]
      | double d => cases d <;> simp [toInt, isInfinite, hnone]

/-- A whole number is read from a finite number, or the fault is reported. -/
theorem wholeOr_measured {fault : BoardFault} (h : fault.isReported = true) (d : Data) :
    Measured [d] (wholeOr fault d) := by
  have hinf := d.toInt_eq_infinite_iff
  unfold wholeOr
  cases hd : d.toInt with
  | ok n =>
    refine .of_finite_one ?_ n
    rw [← Bool.not_eq_true, ← hinf, hd]
    exact nofun
  | error e =>
    cases e with
    | noNumber => exact .error h
    | infinite =>
      refine ⟨nofun, fun fault' he => .inr ?_⟩
      cases he
      exact ⟨rfl, d, .head _, hinf.mp hd⟩

theorem Cell.ofData_measured (d : Data) : Measured [] (ofData d) := by
  unfold ofData
  split
  · dsimp only
    split
    · split
      · split
        · exact .ok _
        · exact .error rfl
      · exact .error rfl
    · exact .ok _
    · exact .ok _
  · exact .ok _

theorem Start.ofData_measured (size : Nat) (d : Data) : Measured (measures d) (ofData size d) := by
  cases d with
  | null | scalar | list => exact .error rfl
  | record fields =>
    refine (wholeOr_measured rfl _).bind fun x _ => (wholeOr_measured rfl _).bind fun y _ => ?_
    split
    · exact .ok _
    · exact .error rfl

/-- Data that is not there gives no number. -/
theorem Start.measures_of_absent {d : Data} (h : d.isPresent = false) :
    ∀ m ∈ measures d, m.isInfinite = false := by
  cases d with
  | null | scalar | list => nofun
  | record fields =>
    have hnil : fields = [] := by simpa [Data.isPresent] using h
    subst hnil
    simp [measures, Data.field, Data.isInfinite]

theorem Data.finite_of_absent {d : Data} (h : d.isPresent = false) : d.isInfinite = false := by
  rw [← Bool.not_eq_true]
  intro hinf
  unfold isInfinite at hinf
  split at hinf
  · cases h
  · cases hinf

end Readers

namespace Board

theorem readRows_measured (fields : List (String × Data)) : Measured [] (readRows fields) := by
  unfold readRows
  split
  · exact .ok _
  · exact .error rfl

theorem readStart_measured (fields : List (String × Data)) : Measured [] (readStart fields) := by
  unfold readStart
  dsimp only
  split
  · exact .ok _
  · exact .error rfl

theorem readStart_eq {fields : List (String × Data)} {start : Data}
    (h : readStart fields = .ok start) : start = Data.field "bunnyPosition" fields := by
  unfold readStart at h
  dsimp only at h
  split at h
  · cases h
    rfl
  · cases h

theorem readSize_measured (fields : List (String × Data)) (rows : List Data) :
    Measured [Data.field "gridSize" fields] (readSize fields rows) := by
  unfold readSize Data.field Data.field?
  cases fields.lookup "gridSize" with
  | some size => exact wholeOr_measured rfl size
  | none => exact .of_finite_one rfl _

theorem readGrid_measured (size : Int) (rows : List Data) : Measured [] (readGrid size rows) := by
  unfold readGrid
  dsimp only
  split
  · exact .error rfl
  · have hcells (row : Vector Data rows.length) : Measured [] (row.mapM Cell.ofData) :=
      .vector_mapM Cell.ofData_measured row
    exact (Measured.vector_mapM hcells _).bind fun cells _ => .ok _

theorem readSecond_measured (fields : List (String × Data)) (size : Nat) :
    Measured (Start.measures (Data.field "bunnyPosition2" fields)) (readSecond fields size) := by
  unfold readSecond
  dsimp only
  split
  · exact Measured.map_iff.mpr (Start.ofData_measured size _)
  · rename_i habsent
    exact .of_finite (Start.measures_of_absent (by simpa using habsent)) none

theorem readLimit_measured (fields : List (String × Data)) :
    Measured [Data.field "blockLimit" fields] (readLimit fields) := by
  unfold readLimit
  dsimp only
  split
  · exact wholeOr_measured rfl _
  · rename_i habsent
    exact .of_finite_one (Data.finite_of_absent (by simpa using habsent)) _

/-- The fields of a map give a board only if its numbers are finite, and a fault that is reported
unless one of them is infinite. -/
theorem ofFields_measured (fields : List (String × Data)) :
    Measured (measures fields) (ofFields fields) := by
  have hparts : measures fields = [] ++ ([] ++ ([Data.field "gridSize" fields] ++ ([] ++
      (Start.measures (Data.field "bunnyPosition" fields) ++
        (Start.measures (Data.field "bunnyPosition2" fields) ++
          ([Data.field "blockLimit" fields] ++ [])))))) := by
    simp [measures]
  rw [hparts]
  refine (readRows_measured fields).bind fun rows _ => ?_
  refine (readStart_measured fields).bind fun start hstart => ?_
  rw [← readStart_eq hstart]
  refine (readSize_measured fields rows).bind fun size _ => ?_
  refine (readGrid_measured size rows).bind fun grid _ => ?_
  refine (Start.ofData_measured grid.size start).bind fun first _ => ?_
  refine (readSecond_measured fields grid.size).bind fun second _ => ?_
  exact (readLimit_measured fields).bind fun limit _ => .ok _

end Board
end BunnyGrid
