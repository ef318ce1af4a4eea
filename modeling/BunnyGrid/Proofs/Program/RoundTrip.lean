import BunnyGrid.Program.Block

/-! Programs written as data and read back. What was read once reads the same again, with all that
was not understood in it; and a program without such parts reads back from what it is written as. -/
namespace BunnyGrid

theorem ArithOp.ofText?_name (op : ArithOp) : ofText? op.name = some op := by
  cases op <;> decide

theorem CompareOp.ofText?_name (op : CompareOp) : ofText? op.name = some op := by
  cases op <;> decide

theorem LogicOp.ofText?_name (op : LogicOp) : ofText? op.name = some op := by
  cases op <;> decide

theorem Axis.ofData?_name (axis : Axis) : ofData? (.scalar (.text axis.name)) = some axis := by
  cases axis <;> decide

theorem Jump.ofText?_name (jump : Jump) : ofText? jump.name = some jump := by
  cases jump <;> decide

theorem Turn.ofText?_name (turn : Turn) : ofText? turn.name = some turn := by
  cases turn <;> decide

/-- What is looked up in a list has what all its values have. -/
theorem lookup_getD_of_forall {α : Type} {P : α → Prop} {fields : List (String × α)} {name : String}
    {default : α} (h : ∀ field ∈ fields, P field.2) (hd : P default) :
    P ((fields.lookup name).getD default) := by
  cases hl : fields.lookup name with
  | none => exact hd
  | some a =>
    have hmem := (List.lookup_eq_some_iff.mp hl)
    obtain ⟨before, after, rfl, -⟩ := hmem
    exact h (name, a) (by simp)

namespace Expr

/-- All that was not understood in an expression would not be understood again. -/
def Faithful : Expr → Prop
  | unknown raw => ofData raw = unknown raw
  | arith _ l r | compare _ l r | logic _ l r => Faithful l ∧ Faithful r
  | not e => Faithful e
  | _ => True

/-- Whether all of an expression was understood. -/
def isKnown : Expr → Bool
  | unknown _ => false
  | arith _ l r | compare _ l r | logic _ l r => isKnown l && isKnown r
  | not e => isKnown e
  | _ => true

theorem faithful_of_isKnown (e : Expr) (h : e.isKnown = true) : e.Faithful := by
  induction e with
  | literal | coord | var => trivial
  | arith _ _ _ ihl ihr | compare _ _ _ ihl ihr | logic _ _ _ ihl ihr =>
    have h := Bool.and_eq_true_iff.mp h
    exact ⟨ihl h.1, ihr h.2⟩
  | not _ ih => exact ih h
  | unknown => cases h

theorem toData_arith (op : ArithOp) (l r : Expr) : toData (arith op l r) =
    .record [("type", .text "Binary"), ("op", .text op.name), ("left", l.toData),
      ("right", r.toData)] := rfl

theorem toData_compare (op : CompareOp) (l r : Expr) : toData (compare op l r) =
    .record [("type", .text "Compare"), ("op", .text op.name), ("left", l.toData),
      ("right", r.toData)] := rfl

theorem toData_logic (op : LogicOp) (l r : Expr) : toData (logic op l r) =
    .record [("type", .text "Logic"), ("op", .text op.name), ("left", l.toData),
      ("right", r.toData)] := rfl

/-- A faithful expression reads back from what it is written as. -/
theorem ofData_toData_of_faithful (e : Expr) (h : e.Faithful) : ofData e.toData = e := by
  induction e with
  | literal v => cases v <;> rfl
  | coord axis =>
    have haxis := Axis.ofData?_name axis
    simp [toData, ofData, ofRecord, Data.field, Data.text, List.lookup_cons, haxis]
  | var name => rfl
  | arith op l r ihl ihr =>
    have hop := ArithOp.ofText?_name op
    rw [toData_arith, ofData, ofFields, ofFields, ofFields, ofFields, ihl h.1, ihr h.2]
    simp [ofRecord, Data.field, Data.field?, Data.text, Data.asText, List.lookup_cons, hop]
  | compare op l r ihl ihr =>
    have hop := CompareOp.ofText?_name op
    rw [toData_compare, ofData, ofFields, ofFields, ofFields, ofFields, ihl h.1, ihr h.2]
    simp [ofRecord, Data.field, Data.field?, Data.text, Data.asText, List.lookup_cons, hop]
  | logic op l r ihl ihr =>
    have hop := LogicOp.ofText?_name op
    rw [toData_logic, ofData, ofFields, ofFields, ofFields, ofFields, ihl h.1, ihr h.2]
    simp [ofRecord, Data.field, Data.field?, Data.text, Data.asText, List.lookup_cons, hop]
  | not e ih =>
    rw [toData, ofData, ofFields, ofFields, ih h]
    simp [ofRecord, Data.field, Data.text, List.lookup_cons]
  | unknown raw => exact h

/-- An expression that is understood, though its parts may not be. -/
structure Understood (e : Expr) : Prop where
  faithful : e.Faithful
  ne_unknown : ∀ raw, e ≠ unknown raw

theorem getD_map_understood {α : Type} (found : Option α) {f : α → Expr} (raw : Expr)
    (h : ∀ a, (f a).Understood) :
    (found.map f).getD raw = raw ∨ ((found.map f).getD raw).Understood := by
  cases found with
  | none => exact .inl rfl
  | some a => exact .inr (h a)

/-- A record is understood, with the parts that its fields read as, or kept as it is. -/
theorem ofRecord_understood {fields : List (String × Data)} {parts : List (String × Expr)}
    (h : ∀ part ∈ parts, part.2.Faithful) :
    ofRecord fields parts = unknown (.record fields) ∨ (ofRecord fields parts).Understood := by
  have hpart (name : String) : ((parts.lookup name).getD (unknown .null)).Faithful :=
    lookup_getD_of_forall (P := Faithful) h rfl
  have hparts : ((parts.lookup "left").getD (unknown .null)).Faithful ∧
      ((parts.lookup "right").getD (unknown .null)).Faithful := ⟨hpart "left", hpart "right"⟩
  unfold ofRecord
  dsimp only
  split
  case h_2 => exact .inl rfl
  case h_1 kind _ =>
    split
    · split
      · exact .inr ⟨trivial, nofun⟩
      · exact .inl rfl
    split
    · exact getD_map_understood _ _ fun axis => ⟨trivial, nofun⟩
    split
    · exact .inr ⟨trivial, nofun⟩
    split
    · exact getD_map_understood _ _ fun op => ⟨hparts, nofun⟩
    split
    · exact getD_map_understood _ _ fun op => ⟨hparts, nofun⟩
    split
    · exact getD_map_understood _ _ fun op => ⟨hparts, nofun⟩
    split
    · exact .inr ⟨hpart "child", nofun⟩
    · exact .inl rfl

mutual

/-- Whatever data reads as, it is understood or kept as it is. -/
theorem ofData_understood (d : Data) : ofData d = unknown d ∨ (ofData d).Understood := by
  cases d with
  | null => exact .inl (ofData.eq_def .null)
  | list items => exact .inl (ofData.eq_def (.list items))
  | scalar v =>
    rw [ofData]
    exact .inr ⟨trivial, nofun⟩
  | record fields =>
    rw [ofData]
    exact ofRecord_understood (ofFields_faithful fields)

theorem ofFields_faithful (fields : List (String × Data)) :
    ∀ part ∈ ofFields fields, part.2.Faithful := by
  intro part hmem
  cases fields with
  | nil => simp [ofFields] at hmem
  | cons field rest =>
    rw [ofFields] at hmem
    rcases List.mem_cons.mp hmem with rfl | hmem
    · rcases ofData_understood field.2 with h | h
      · dsimp only
        rw [h]
        exact h
      · exact h.faithful
    · exact ofFields_faithful rest part hmem

end

theorem ofData_faithful (d : Data) : (ofData d).Faithful := by
  rcases ofData_understood d with h | h
  · rw [h]
    exact h
  · exact h.faithful

end Expr

namespace Amount

/-- A missing amount reads as one, so no amount is a missing expression. -/
def Faithful : Amount → Prop
  | plain _ => True
  | expr e => e.Faithful ∧ e ≠ .unknown .null

def isKnown : Amount → Bool
  | plain _ => true
  | expr e => e.isKnown

theorem faithful_of_isKnown (a : Amount) (h : a.isKnown = true) : a.Faithful := by
  cases a with
  | plain => trivial
  | expr e =>
    refine ⟨e.faithful_of_isKnown h, ?_⟩
    rintro rfl
    cases h

theorem ofData_toData_of_faithful (a : Amount) (h : a.Faithful) : ofData a.toData = a := by
  cases a with
  | plain n => rfl
  | expr e =>
    have he : Expr.ofData e.toData = e := e.ofData_toData_of_faithful h.1
    show ofData e.toData = expr e
    unfold ofData
    split
    case h_1 n hn =>
      -- only a literal reads from a whole number, and it is written as a record
      rw [hn, Expr.ofData] at he
      subst he
      cases hn
    case h_2 hn =>
      rw [hn, Expr.ofData] at he
      exact absurd he.symm h.2
    case h_3 => rw [he]

theorem ofData_faithful (d : Data) : (ofData d).Faithful := by
  unfold ofData
  split
  case h_1 => trivial
  case h_2 => trivial
  case h_3 hnull =>
    refine ⟨Expr.ofData_faithful d, fun h => ?_⟩
    rcases Expr.ofData_understood d with hd | hd
    · rw [h] at hd
      exact hnull (Expr.unknown.inj hd).symm
    · exact hd.ne_unknown _ h

end Amount

namespace Action

def Faithful : Action → Prop
  | jump _ amount => amount.Faithful
  | turn _ => True
  | setVar _ value => value.Faithful
  | changeVar _ delta => delta.Faithful

def isKnown : Action → Bool
  | jump _ amount => amount.isKnown
  | turn _ => true
  | setVar _ value => value.isKnown
  | changeVar _ delta => delta.isKnown

theorem faithful_of_isKnown (a : Action) (h : a.isKnown = true) : a.Faithful := by
  cases a with
  | jump _ amount => exact amount.faithful_of_isKnown h
  | turn => trivial
  | setVar _ e | changeVar _ e => exact e.faithful_of_isKnown h

theorem ofData_toData_of_faithful (a : Action) (h : a.Faithful) :
    Block.ofData a.toData = .act a := by
  cases a with
  | jump kind amount =>
    have hkind := Jump.ofText?_name kind
    have hamount := amount.ofData_toData_of_faithful h
    simp [toData, Block.ofData, Block.ofRecord, Data.field, Data.text, List.lookup_cons, hkind,
      hamount]
  | turn direction =>
    have hdirection := Turn.ofText?_name direction
    have hno : Jump.ofText? "Turn" = none := by decide
    simp [toData, Block.ofData, Block.ofRecord, Data.field, Data.field?, Data.text, Data.asText,
      List.lookup_cons, hno, hdirection]
  | setVar name value =>
    have hno : Jump.ofText? "SetVar" = none := by decide
    have hvalue := value.ofData_toData_of_faithful h
    simp [toData, Block.ofData, Block.ofRecord, Data.field, Data.field?, Data.text, Data.asText,
      List.lookup_cons, hno, hvalue]
  | changeVar name delta =>
    have hno : Jump.ofText? "ChangeVar" = none := by decide
    have hdelta := delta.ofData_toData_of_faithful h
    simp [toData, Block.ofData, Block.ofRecord, Data.field, Data.field?, Data.text, Data.asText,
      List.lookup_cons, hno, hdelta]

end Action

namespace Block

mutual

/-- All that was not understood in a block would not be understood again. -/
def Faithful : Block → Prop
  | act action => action.Faithful
  | branch condition yes no => condition.Faithful ∧ FaithfulAll yes ∧ FaithfulAll no
  | whileLoop condition body => condition.Faithful ∧ FaithfulAll body
  | repeatLoop times body => times.Faithful ∧ FaithfulAll body
  | unknown kind raw => ofData raw = unknown kind raw

def FaithfulAll : List Block → Prop
  | [] => True
  | b :: rest => Faithful b ∧ FaithfulAll rest

end

mutual

/-- Whether all of a block was understood. -/
def isKnown : Block → Bool
  | act action => action.isKnown
  | branch condition yes no => condition.isKnown && isKnownAll yes && isKnownAll no
  | whileLoop condition body => condition.isKnown && isKnownAll body
  | repeatLoop times body => times.isKnown && isKnownAll body
  | unknown _ _ => false

def isKnownAll : List Block → Bool
  | [] => true
  | b :: rest => isKnown b && isKnownAll rest

end

mutual

theorem faithful_of_isKnown (b : Block) (h : b.isKnown = true) : b.Faithful := by
  cases b with
  | act action =>
    rw [isKnown] at h
    rw [Faithful]
    exact action.faithful_of_isKnown h
  | branch condition yes no =>
    simp only [isKnown, Bool.and_eq_true] at h
    rw [Faithful]
    exact ⟨condition.faithful_of_isKnown h.1.1, faithfulAll_of_isKnownAll yes h.1.2,
      faithfulAll_of_isKnownAll no h.2⟩
  | whileLoop condition body =>
    simp only [isKnown, Bool.and_eq_true] at h
    rw [Faithful]
    exact ⟨condition.faithful_of_isKnown h.1, faithfulAll_of_isKnownAll body h.2⟩
  | repeatLoop times body =>
    simp only [isKnown, Bool.and_eq_true] at h
    rw [Faithful]
    exact ⟨times.faithful_of_isKnown h.1, faithfulAll_of_isKnownAll body h.2⟩
  | unknown kind raw => simp [isKnown] at h

theorem faithfulAll_of_isKnownAll (bs : List Block) (h : isKnownAll bs = true) :
    FaithfulAll bs := by
  cases bs with
  | nil =>
    rw [FaithfulAll]
    trivial
  | cons b rest =>
    simp only [isKnownAll, Bool.and_eq_true] at h
    rw [FaithfulAll]
    exact ⟨faithful_of_isKnown b h.1, faithfulAll_of_isKnownAll rest h.2⟩

end

mutual

/-- A faithful block reads back from what it is written as. -/
theorem ofData_toData_of_faithful (b : Block) (h : b.Faithful) : ofData b.toData = b := by
  cases b with
  | act action =>
    rw [Faithful] at h
    rw [toData]
    exact action.ofData_toData_of_faithful h
  | branch condition yes no =>
    rw [Faithful] at h
    have hcondition := condition.ofData_toData_of_faithful h.1
    have hyes := ofItems_toItems_of_faithful yes h.2.1
    have hno := ofItems_toItems_of_faithful no h.2.2
    have hjump : Jump.ofText? "If" = none := by decide
    simp [toData, ofData, bodies, programOfData, ofRecord, Data.field, Data.text, List.lookup_cons,
      hcondition, hyes, hno, hjump]
  | whileLoop condition body =>
    rw [Faithful] at h
    have hcondition := condition.ofData_toData_of_faithful h.1
    have hbody := ofItems_toItems_of_faithful body h.2
    have hjump : Jump.ofText? "While" = none := by decide
    simp [toData, ofData, bodies, programOfData, ofRecord, Data.field, Data.text, List.lookup_cons,
      hcondition, hbody, hjump]
  | repeatLoop times body =>
    rw [Faithful] at h
    have htimes := times.ofData_toData_of_faithful h.1
    have hbody := ofItems_toItems_of_faithful body h.2
    have hjump : Jump.ofText? "Repeat" = none := by decide
    simp [toData, ofData, bodies, programOfData, ofRecord, Data.field, Data.field?, Data.text,
      List.lookup_cons, htimes, hbody, hjump]
  | unknown kind raw =>
    rw [Faithful] at h
    rw [toData]
    exact h

theorem ofItems_toItems_of_faithful (bs : List Block) (h : FaithfulAll bs) :
    ofItems (toItems bs) = bs := by
  cases bs with
  | nil => rw [toItems, ofItems]
  | cons b rest =>
    rw [FaithfulAll] at h
    rw [toItems, ofItems, ofData_toData_of_faithful b h.1, ofItems_toItems_of_faithful rest h.2]

end

/-- A record reads as a block of parts that its fields read as, or is kept as it is. -/
theorem ofRecord_faithful {fields : List (String × Data)} {bodies : List (String × Program)}
    (h : ∀ body ∈ bodies, FaithfulAll body.2) :
    (∃ kind, ofRecord fields bodies = unknown kind (.record fields)) ∨
      (ofRecord fields bodies).Faithful := by
  have hnil : FaithfulAll [] := by rw [FaithfulAll]; trivial
  have hbody (name : String) : FaithfulAll ((bodies.lookup name).getD []) :=
    lookup_getD_of_forall (P := FaithfulAll) h hnil
  have hchildren : FaithfulAll ((bodies.lookup "body").getD ((bodies.lookup "children").getD [])) :=
    lookup_getD_of_forall (P := FaithfulAll) h (hbody "children")
  unfold ofRecord
  dsimp only
  split
  case h_2 => exact .inl ⟨_, rfl⟩
  case h_1 kind _ =>
    split
    · right
      rw [Faithful]
      exact Amount.ofData_faithful _
    split
    · split
      · right
        rw [Faithful]
        trivial
      · exact .inl ⟨_, rfl⟩
    split
    · right
      rw [Faithful]
      exact Expr.ofData_faithful _
    split
    · right
      rw [Faithful]
      exact Expr.ofData_faithful _
    split
    · right
      rw [Faithful]
      exact ⟨Expr.ofData_faithful _, hbody "then", hbody "else"⟩
    split
    · right
      rw [Faithful]
      exact ⟨Expr.ofData_faithful _, hbody "body"⟩
    split
    · right
      rw [Faithful]
      exact ⟨Amount.ofData_faithful _, hchildren⟩
    · exact .inl ⟨_, rfl⟩

/-- What is kept as it is stays so. -/
theorem faithful_of_kept {d : Data}
    (h : (∃ kind, ofData d = unknown kind d) ∨ (ofData d).Faithful) :
    (ofData d).Faithful := by
  rcases h with ⟨kind, h⟩ | h
  · rw [h, Faithful]
    exact h
  · exact h

mutual

theorem ofData_faithful (d : Data) : (ofData d).Faithful := by
  apply faithful_of_kept
  cases d with
  | null | scalar | list =>
    rw [ofData]
    exact .inl ⟨_, rfl⟩
  | record fields =>
    rw [ofData]
    exact ofRecord_faithful (bodies_faithful fields)

theorem ofItems_faithful (items : List Data) : FaithfulAll (ofItems items) := by
  cases items with
  | nil =>
    rw [ofItems, FaithfulAll]
    trivial
  | cons d rest =>
    rw [ofItems, FaithfulAll]
    exact ⟨ofData_faithful d, ofItems_faithful rest⟩

theorem programOfData_faithful (d : Data) : FaithfulAll (programOfData d) := by
  cases d with
  | list items =>
    rw [programOfData]
    exact ofItems_faithful items
  | null | scalar | record =>
    simp only [programOfData, FaithfulAll]

theorem bodies_faithful (fields : List (String × Data)) :
    ∀ body ∈ bodies fields, FaithfulAll body.2 := by
  intro body hmem
  cases fields with
  | nil => simp [bodies] at hmem
  | cons field rest =>
    rw [bodies] at hmem
    rcases List.mem_cons.mp hmem with rfl | hmem
    · exact programOfData_faithful field.2
    · exact bodies_faithful rest body hmem

end

end Block

namespace Program

/-- Whether all of a program was understood. -/
def isKnown (p : Program) : Bool := Block.isKnownAll p

theorem ofData_toData_of_faithful (p : Program) (h : Block.FaithfulAll p) :
    ofData p.toData = p := by
  rw [toData, ofData, Block.programOfData]
  exact Block.ofItems_toItems_of_faithful p h

/-- Whatever data is read as an expression or a program, what is then written reads the same. A
program of which all is understood reads back from what it is written as. -/
theorem ofData_toData_ofData :
    (∀ d, Expr.ofData (Expr.ofData d).toData = Expr.ofData d) ∧
    (∀ d, ofData (ofData d).toData = ofData d) ∧
    ∀ p : Program, p.isKnown = true → ofData p.toData = p := by
  refine ⟨fun d => ?_, fun d => ?_, fun p hp => ?_⟩
  · exact (Expr.ofData d).ofData_toData_of_faithful (Expr.ofData_faithful d)
  · exact (ofData d).ofData_toData_of_faithful (Block.programOfData_faithful d)
  · exact p.ofData_toData_of_faithful (Block.faithfulAll_of_isKnownAll p hp)

/-- A literal is told from a plain number, as a length and as a count. -/
theorem ofData_toData_ofData_literal :
    let p : Program :=
      [.repeatLoop (.plain 3) [.act (.jump .left (.expr (.literal (.int 2))))],
        .repeatLoop (.expr (.arith .rem (.var "n") (.coord .y)))
          [.branch (.not (.compare .le (.literal (.bool true)) (.literal (.text "1")))) []
            [.act (.changeVar "n" (.literal (.int (-1))))]]]
    p.isKnown = true ∧ ofData p.toData = p :=
  ⟨by decide, ofData_toData_ofData.2.2 _ (by decide)⟩

end Program
end BunnyGrid
