import BunnyGrid.Proofs.Program.RoundTrip
import Mathlib

/-! Programs as an editor may write them: an operator or a turn by any of its names in any letter
case, a repetition by either name of its count and its body, an empty body as an empty list or not
at all, a literal bare or as a record. Whatever is chosen at each place, the data reads as the
program that it writes. -/
namespace BunnyGrid

namespace Text

/-- Texts that differ in the case of ASCII letters at most. -/
def SameLetters (s t : String) : Prop := s.toList.map Char.toLower = t.toList.map Char.toLower

instance (s t : String) : Decidable (SameLetters s t) := inferInstanceAs (Decidable (_ = _))

/-- A text is one of some names, in any letter case. -/
def IsNamed (names : List String) (s : String) : Prop := ∃ name ∈ names, SameLetters s name

section Case

variable {c : Char} {s t : String}

/-- Only characters beyond ASCII have a capital form of their own. -/
theorem capital_of_isAlpha (h : c.isAlpha = true) : capital c = [c.toUpper] := by
  unfold capital
  split
  case h_11 => rfl
  all_goals exact absurd h (by decide)

theorem capital_toLower (c : Char) : capital c.toLower = capital c := by
  cases hc : c.isUpper with
  | false => rw [Char.toLower_eq_of_not_isUpper (by simp [hc])]
  | true =>
    have halpha : c.isAlpha = true := by simp [Char.isAlpha, hc]
    rw [capital_of_isAlpha halpha, capital_of_isAlpha (by simpa using halpha),
      Char.toUpper_toLower_eq_toUpper]

theorem small_toLower (c : Char) : small c.toLower = small c := by
  cases hc : c.isUpper with
  | false => rw [Char.toLower_eq_of_not_isUpper (by simp [hc])]
  | true =>
    have hkelvin (d : Char) (hd : d.isAlpha = true) : d ≠ '\u212a' := by
      rintro rfl
      exact absurd hd (by decide)
    have halpha : c.isAlpha = true := by simp [Char.isAlpha, hc]
    unfold small
    rw [if_neg (hkelvin _ halpha), if_neg (hkelvin _ (by simpa using halpha)),
      Char.toLower_toLower_eq_toLower]

theorem SameLetters.capitals_eq (h : SameLetters s t) : capitals s = capitals t := by
  have hlower (s : String) :
      s.toList.flatMap capital = (s.toList.map Char.toLower).flatMap capital := by
    simp only [List.flatMap_map, capital_toLower]
  unfold capitals
  rw [hlower s, h, ← hlower]

theorem SameLetters.smalls_eq (h : SameLetters s t) : smalls s = smalls t := by
  have hlower (s : String) : s.toList.map small = (s.toList.map Char.toLower).map small := by
    simp only [List.map_map, Function.comp_def, small_toLower]
  unfold smalls
  rw [hlower s, h, ← hlower]

end Case

end Text

section Names

/-- The names of an operator in programs. -/
def ArithOp.names : ArithOp → List String
  | .add => ["ADD"]
  | .sub => ["SUB", "MINUS"]
  | .mul => ["MUL", "MULTIPLY"]
  | .div => ["DIV", "DIVIDE"]
  | .pow => ["POW", "POWER"]
  | .rem => ["MOD", "MODULO"]

/-- The names of a turn in programs. -/
def Turn.names : Turn → List String
  | .right => ["right", "右"]
  | .back => ["back", "後"]
  | .left => ["left", "左"]

/-- What a reader finds for each name it finds for every spelling of it. -/
theorem read_of_isNamed {α : Type} {read : String → Option α} {a : α} {names : List String}
    {s : String} (h : Text.IsNamed names s) (hnames : ∀ name ∈ names, read name = some a)
    (hcase : ∀ name, Text.SameLetters s name → read s = read name) : read s = some a := by
  obtain ⟨name, hmem, hsame⟩ := h
  rw [hcase name hsame]
  exact hnames name hmem

variable {s : String}

theorem ArithOp.ofText?_of_isNamed {op : ArithOp} (h : Text.IsNamed op.names s) :
    ofText? s = some op := by
  refine read_of_isNamed h ?_ fun name hsame => ?_
  · cases op <;> decide
  · unfold ofText?
    rw [hsame.capitals_eq]

theorem CompareOp.ofText?_of_isNamed {op : CompareOp} (h : Text.IsNamed [op.name] s) :
    ofText? s = some op := by
  refine read_of_isNamed h ?_ fun name hsame => ?_
  · simpa using ofText?_name op
  · unfold ofText?
    rw [hsame.capitals_eq]

theorem LogicOp.ofText?_of_isNamed {op : LogicOp} (h : Text.IsNamed [op.name] s) :
    ofText? s = some op := by
  refine read_of_isNamed h ?_ fun name hsame => ?_
  · simpa using ofText?_name op
  · unfold ofText?
    rw [hsame.capitals_eq]

theorem Turn.ofText?_of_isNamed {turn : Turn} (h : Text.IsNamed turn.names s) :
    ofText? s = some turn := by
  refine read_of_isNamed h ?_ fun name hsame => ?_
  · cases turn <;> decide
  · unfold ofText?
    rw [hsame.smalls_eq]

end Names

section Fields

variable {fields : List (String × Data)} {name : String} {d : Data}

theorem Data.field_of_field? (h : field? name fields = some d) : field name fields = d := by
  unfold field
  rw [show fields.lookup name = some d from h]
  rfl

theorem Expr.lookup_ofFields (fields : List (String × Data)) (name : String) :
    (ofFields fields).lookup name = (Data.field? name fields).map ofData := by
  unfold Data.field?
  induction fields with
  | nil => rfl
  | cons field rest ih =>
    rw [ofFields, List.lookup_cons, List.lookup_cons]
    split
    · rfl
    · exact ih

theorem Block.lookup_bodies (fields : List (String × Data)) (name : String) :
    (bodies fields).lookup name = (Data.field? name fields).map programOfData := by
  unfold Data.field?
  induction fields with
  | nil => rfl
  | cons field rest ih =>
    rw [bodies, List.lookup_cons, List.lookup_cons]
    split
    · rfl
    · exact ih

end Fields

namespace Expr

/-- The types of records that write a literal. -/
def literalTypes : List String := ["Number", "Boolean", "String"]

/-- `e.WrittenAs d` says that the data `d` writes the expression `e`. The fields of a record may
come in any order, and among others. -/
inductive WrittenAs : Expr → Data → Prop
  | bare {v} : WrittenAs (literal v) (.scalar v)
  | record {v kind fields} (hkind : kind ∈ literalTypes)
      (htype : Data.field? "type" fields = some (.text kind))
      (hvalue : Data.field? "value" fields = some (.scalar v)) :
      WrittenAs (literal v) (.record fields)
  | coord {axis fields} (htype : Data.field? "type" fields = some (.text "Get"))
      (hname : Data.field? "name" fields = some (.text axis.name)) :
      WrittenAs (coord axis) (.record fields)
  | var {name fields} (htype : Data.field? "type" fields = some (.text "GetVar"))
      (hname : Data.field? "name" fields = some (.text name)) :
      WrittenAs (var name) (.record fields)
  | arith {op s l r left right fields} (htype : Data.field? "type" fields = some (.text "Binary"))
      (hop : Data.field? "op" fields = some (.text s)) (hs : Text.IsNamed op.names s)
      (hleft : Data.field? "left" fields = some left) (hl : WrittenAs l left)
      (hright : Data.field? "right" fields = some right) (hr : WrittenAs r right) :
      WrittenAs (arith op l r) (.record fields)
  | compare {op s l r left right fields}
      (htype : Data.field? "type" fields = some (.text "Compare"))
      (hop : Data.field? "op" fields = some (.text s)) (hs : Text.IsNamed [op.name] s)
      (hleft : Data.field? "left" fields = some left) (hl : WrittenAs l left)
      (hright : Data.field? "right" fields = some right) (hr : WrittenAs r right) :
      WrittenAs (compare op l r) (.record fields)
  | logic {op s l r left right fields} (htype : Data.field? "type" fields = some (.text "Logic"))
      (hop : Data.field? "op" fields = some (.text s)) (hs : Text.IsNamed [op.name] s)
      (hleft : Data.field? "left" fields = some left) (hl : WrittenAs l left)
      (hright : Data.field? "right" fields = some right) (hr : WrittenAs r right) :
      WrittenAs (logic op l r) (.record fields)
  | not {e child fields} (htype : Data.field? "type" fields = some (.text "Not"))
      (hchild : Data.field? "child" fields = some child) (he : WrittenAs e child) :
      WrittenAs (not e) (.record fields)

/-- An expression is read from whatever writes it. -/
theorem WrittenAs.ofData_eq {e : Expr} {d : Data} (h : e.WrittenAs d) : ofData d = e := by
  induction h with
  | bare => rfl
  | @record v kind fields hkind htype hvalue =>
    have hkind : kind = "Number" ∨ kind = "Boolean" ∨ kind = "String" := by
      simpa [literalTypes] using hkind
    rw [ofData, ofRecord, Data.field_of_field? htype, hvalue]
    exact if_pos hkind
  | coord htype hname =>
    simp [ofData, ofRecord, Data.field_of_field? htype, Data.field_of_field? hname, Data.text,
      Axis.ofData?_name]
  | var htype hname =>
    simp [ofData, ofRecord, Data.field_of_field? htype, hname, Data.text, Data.asText]
  | arith htype hop hs hleft _ hright _ ihl ihr =>
    simp [ofData, ofRecord, Data.field_of_field? htype, hop, Data.text, Data.asText,
      ArithOp.ofText?_of_isNamed hs, lookup_ofFields, hleft, hright, ihl, ihr]
  | compare htype hop hs hleft _ hright _ ihl ihr =>
    simp [ofData, ofRecord, Data.field_of_field? htype, hop, Data.text, Data.asText,
      CompareOp.ofText?_of_isNamed hs, lookup_ofFields, hleft, hright, ihl, ihr]
  | logic htype hop hs hleft _ hright _ ihl ihr =>
    simp [ofData, ofRecord, Data.field_of_field? htype, hop, Data.text, Data.asText,
      LogicOp.ofText?_of_isNamed hs, lookup_ofFields, hleft, hright, ihl, ihr]
  | not htype hchild _ ih =>
    simp [ofData, ofRecord, Data.field_of_field? htype, Data.text, lookup_ofFields, hchild, ih]

end Expr

namespace Amount

/-- The data writes the amount. A bare whole number is a plain amount, so that number as a literal
has to be a record. -/
inductive WrittenAs : Amount → Data → Prop
  | plain {n} : WrittenAs (plain n) (.int n)
  | expr {e d} (he : e.WrittenAs d) (hd : ∀ n, d ≠ .int n) : WrittenAs (expr e) d

theorem WrittenAs.ofData_eq {a : Amount} {d : Data} (h : a.WrittenAs d) : ofData d = a := by
  cases h with
  | plain => rfl
  | expr he hd =>
    have hexpr := he.ofData_eq
    unfold ofData
    split
    case h_1 n => exact absurd rfl (hd n)
    case h_2 => cases he
    case h_3 => rw [hexpr]

end Amount

namespace Action

/-- The data writes the action. -/
inductive WrittenAs : Action → Data → Prop
  | jump {kind amount value fields} (htype : Data.field? "type" fields = some (.text kind.name))
      (hvalue : Data.field? "value" fields = some value) (ha : amount.WrittenAs value) :
      WrittenAs (jump kind amount) (.record fields)
  | turn {direction s fields} (htype : Data.field? "type" fields = some (.text "Turn"))
      (hvalue : Data.field? "value" fields = some (.text s)) (hs : Text.IsNamed direction.names s) :
      WrittenAs (turn direction) (.record fields)
  | setVar {name e value fields} (htype : Data.field? "type" fields = some (.text "SetVar"))
      (hname : Data.field? "name" fields = some (.text name))
      (hvalue : Data.field? "value" fields = some value) (he : e.WrittenAs value) :
      WrittenAs (setVar name e) (.record fields)
  | changeVar {name e delta fields} (htype : Data.field? "type" fields = some (.text "ChangeVar"))
      (hname : Data.field? "name" fields = some (.text name))
      (hdelta : Data.field? "delta" fields = some delta) (he : e.WrittenAs delta) :
      WrittenAs (changeVar name e) (.record fields)

theorem WrittenAs.ofData_eq {a : Action} {d : Data} (h : a.WrittenAs d) :
    Block.ofData d = .act a := by
  cases h with
  | @jump kind amount value fields htype hvalue ha =>
    simp [Block.ofData, Block.ofRecord, Data.field_of_field? htype, Data.field_of_field? hvalue,
      Data.text, Jump.ofText?_name, ha.ofData_eq]
  | turn htype hvalue hs =>
    have hjump : Jump.ofText? "Turn" = none := by decide
    simp [Block.ofData, Block.ofRecord, Data.field_of_field? htype, hvalue, Data.text, Data.asText,
      hjump, Turn.ofText?_of_isNamed hs]
  | setVar htype hname hvalue he =>
    have hjump : Jump.ofText? "SetVar" = none := by decide
    simp [Block.ofData, Block.ofRecord, Data.field_of_field? htype, hname, hvalue, Data.text,
      Data.asText, hjump, he.ofData_eq]
  | changeVar htype hname hdelta he =>
    have hjump : Jump.ofText? "ChangeVar" = none := by decide
    simp [Block.ofData, Block.ofRecord, Data.field_of_field? htype, hname, hdelta, Data.text,
      Data.asText, hjump, he.ofData_eq]

end Action

namespace Block

mutual

/-- `b.WrittenAs d` says that the data `d` writes the block `b`. -/
inductive WrittenAs : Block → Data → Prop
  | act {a d} (ha : a.WrittenAs d) : WrittenAs (act a) d
  | branch {e yes no condition fields} (htype : Data.field? "type" fields = some (.text "If"))
      (hcondition : Data.field? "condition" fields = some condition) (he : e.WrittenAs condition)
      (hyes : BodyWrittenAs yes (Data.field? "then" fields))
      (hno : BodyWrittenAs no (Data.field? "else" fields)) :
      WrittenAs (branch e yes no) (.record fields)
  | whileLoop {e body condition fields} (htype : Data.field? "type" fields = some (.text "While"))
      (hcondition : Data.field? "condition" fields = some condition) (he : e.WrittenAs condition)
      (hbody : BodyWrittenAs body (Data.field? "body" fields)) :
      WrittenAs (whileLoop e body) (.record fields)
  | repeatLoop {times body count fields} (htype : Data.field? "type" fields = some (.text "Repeat"))
      (hcount : (Data.field? "times" fields).or (Data.field? "value" fields) = some count)
      (htimes : times.WrittenAs count)
      (hbody : BodyWrittenAs body
        ((Data.field? "body" fields).or (Data.field? "children" fields))) :
      WrittenAs (repeatLoop times body) (.record fields)

/-- What a field holds writes the blocks of a body. For no blocks it may be missing. -/
inductive BodyWrittenAs : List Block → Option Data → Prop
  | missing : BodyWrittenAs [] none
  | list {bs items} (h : AllWrittenAs bs items) : BodyWrittenAs bs (some (.list items))

/-- Data write blocks, one for one. -/
inductive AllWrittenAs : List Block → List Data → Prop
  | nil : AllWrittenAs [] []
  | cons {b bs d items} (hb : WrittenAs b d) (hbs : AllWrittenAs bs items) :
      AllWrittenAs (b :: bs) (d :: items)

end

/-- The program in the first of two fields that a record has. -/
theorem lookup_bodies_or (fields : List (String × Data)) (name other : String) :
    ((bodies fields).lookup name).getD (((bodies fields).lookup other).getD []) =
      (((Data.field? name fields).or (Data.field? other fields)).map programOfData).getD [] := by
  rw [lookup_bodies, lookup_bodies]
  cases Data.field? name fields <;> rfl

theorem BodyWrittenAs.eq_of_items {bs : List Block} {held : Option Data} (h : BodyWrittenAs bs held)
    (hread : ∀ {items}, AllWrittenAs bs items → ofItems items = bs) :
    (held.map programOfData).getD [] = bs := by
  cases h with
  | missing => rfl
  | list hitems =>
    rw [Option.map_some, Option.getD_some, programOfData]
    exact hread hitems

mutual

/-- A block is read from whatever writes it. -/
theorem ofData_of_writtenAs (b : Block) {d : Data} (h : b.WrittenAs d) : ofData d = b := by
  cases b with
  | act a =>
    cases h with
    | act ha => exact ha.ofData_eq
  | branch e yes no =>
    cases h with
    | branch htype hcondition he hyes hno =>
      have hjump : Jump.ofText? "If" = none := by decide
      have hyes := hyes.eq_of_items (ofItems_of_writtenAs yes)
      have hno := hno.eq_of_items (ofItems_of_writtenAs no)
      simp [ofData, ofRecord, Data.field_of_field? htype, Data.field_of_field? hcondition,
        Data.text, hjump, he.ofData_eq, lookup_bodies, hyes, hno]
  | whileLoop e body =>
    cases h with
    | whileLoop htype hcondition he hbody =>
      have hjump : Jump.ofText? "While" = none := by decide
      have hbody := hbody.eq_of_items (ofItems_of_writtenAs body)
      simp [ofData, ofRecord, Data.field_of_field? htype, Data.field_of_field? hcondition,
        Data.text, hjump, he.ofData_eq, lookup_bodies, hbody]
  | repeatLoop times body =>
    cases h with
    | @repeatLoop _ _ count fields htype hcount htimes hbody =>
      have hjump : Jump.ofText? "Repeat" = none := by decide
      have hamount : (Data.field? "times" fields).getD (Data.field "value" fields) = count := by
        cases ht : Data.field? "times" fields <;> simp_all [Data.field_of_field?]
      have hbody := hbody.eq_of_items (ofItems_of_writtenAs body)
      simp [ofData, ofRecord, Data.field_of_field? htype, Data.text, hjump, hamount,
        htimes.ofData_eq, lookup_bodies_or, hbody]
  | unknown kind raw => cases h

theorem ofItems_of_writtenAs (bs : List Block) {items : List Data} (h : AllWrittenAs bs items) :
    ofItems items = bs := by
  cases bs with
  | nil =>
    cases h
    rw [ofItems]
  | cons b rest =>
    cases h with
    | cons hb hbs => rw [ofItems, ofData_of_writtenAs b hb, ofItems_of_writtenAs rest hbs]

end

end Block

section Known

theorem Text.isNamed_of_mem {names : List String} {name : String} (h : name ∈ names) :
    IsNamed names name := ⟨name, h, rfl⟩

theorem ArithOp.name_mem_names (op : ArithOp) : op.name ∈ op.names := by cases op <;> decide

theorem Turn.name_mem_names (turn : Turn) : turn.name ∈ turn.names := by cases turn <;> decide

theorem Expr.literalType_mem (v : Scalar) : literalType v ∈ literalTypes := by
  cases v <;> simp [literalType, literalTypes]

/-- An expression is written as what it is turned into, if all of it was understood. -/
theorem Expr.writtenAs_toData (e : Expr) (h : e.isKnown = true) : e.WrittenAs e.toData := by
  induction e with
  | literal v => exact .record (literalType_mem v) rfl rfl
  | coord axis => exact .coord rfl rfl
  | var name => exact .var rfl rfl
  | arith op l r ihl ihr =>
    obtain ⟨hl, hr⟩ := Bool.and_eq_true_iff.mp h
    exact .arith rfl rfl (Text.isNamed_of_mem op.name_mem_names) rfl (ihl hl) rfl (ihr hr)
  | compare op l r ihl ihr =>
    obtain ⟨hl, hr⟩ := Bool.and_eq_true_iff.mp h
    exact .compare rfl rfl (Text.isNamed_of_mem (.head _)) rfl (ihl hl) rfl (ihr hr)
  | logic op l r ihl ihr =>
    obtain ⟨hl, hr⟩ := Bool.and_eq_true_iff.mp h
    exact .logic rfl rfl (Text.isNamed_of_mem (.head _)) rfl (ihl hl) rfl (ihr hr)
  | not e ih => exact .not rfl rfl (ih h)
  | unknown raw => cases h

theorem Expr.WrittenAs.isKnown {e : Expr} {d : Data} (h : e.WrittenAs d) : e.isKnown = true := by
  induction h with
  | bare | record | coord | var => rfl
  | arith _ _ _ _ _ _ _ ihl ihr | compare _ _ _ _ _ _ _ ihl ihr | logic _ _ _ _ _ _ _ ihl ihr =>
    exact Bool.and_eq_true_iff.mpr ⟨ihl, ihr⟩
  | not _ _ _ ih => exact ih

theorem Amount.writtenAs_toData (a : Amount) (h : a.isKnown = true) : a.WrittenAs a.toData := by
  cases a with
  | plain n => exact .plain
  | expr e =>
    refine .expr (e.writtenAs_toData h) fun n => ?_
    cases e with
    | unknown => cases h
    | _ => exact nofun

theorem Amount.WrittenAs.isKnown {a : Amount} {d : Data} (h : a.WrittenAs d) :
    a.isKnown = true := by
  cases h with
  | plain => rfl
  | expr he => exact he.isKnown

theorem Action.writtenAs_toData (a : Action) (h : a.isKnown = true) : a.WrittenAs a.toData := by
  cases a with
  | jump kind amount => exact .jump rfl rfl (amount.writtenAs_toData h)
  | turn direction => exact .turn rfl rfl (Text.isNamed_of_mem direction.name_mem_names)
  | setVar name e => exact .setVar rfl rfl rfl (e.writtenAs_toData h)
  | changeVar name e => exact .changeVar rfl rfl rfl (e.writtenAs_toData h)

theorem Action.WrittenAs.isKnown {a : Action} {d : Data} (h : a.WrittenAs d) :
    a.isKnown = true := by
  cases h with
  | jump _ _ ha => exact ha.isKnown
  | turn => rfl
  | setVar _ _ _ he | changeVar _ _ _ he => exact he.isKnown

mutual

theorem Block.writtenAs_toData (b : Block) (h : b.isKnown = true) : b.WrittenAs b.toData := by
  cases b with
  | act a =>
    rw [isKnown] at h
    rw [toData]
    exact .act (a.writtenAs_toData h)
  | branch e yes no =>
    simp only [isKnown, Bool.and_eq_true] at h
    rw [toData]
    exact .branch rfl rfl (e.writtenAs_toData h.1.1) (.list (writtenAs_toItems yes h.1.2))
      (.list (writtenAs_toItems no h.2))
  | whileLoop e body =>
    simp only [isKnown, Bool.and_eq_true] at h
    rw [toData]
    exact .whileLoop rfl rfl (e.writtenAs_toData h.1) (.list (writtenAs_toItems body h.2))
  | repeatLoop times body =>
    simp only [isKnown, Bool.and_eq_true] at h
    rw [toData]
    exact .repeatLoop rfl rfl (times.writtenAs_toData h.1) (.list (writtenAs_toItems body h.2))
  | unknown kind raw => simp [isKnown] at h

theorem Block.writtenAs_toItems (bs : List Block) (h : isKnownAll bs = true) :
    AllWrittenAs bs (toItems bs) := by
  cases bs with
  | nil =>
    rw [toItems]
    exact .nil
  | cons b rest =>
    simp only [isKnownAll, Bool.and_eq_true] at h
    rw [toItems]
    exact .cons (writtenAs_toData b h.1) (writtenAs_toItems rest h.2)

end

theorem Block.BodyWrittenAs.isKnownAll_of_items {bs : List Block} {held : Option Data}
    (h : BodyWrittenAs bs held) (hread : ∀ {items}, AllWrittenAs bs items → isKnownAll bs = true) :
    isKnownAll bs = true := by
  cases h with
  | missing => rw [isKnownAll]
  | list hitems => exact hread hitems

mutual

theorem Block.isKnown_of_writtenAs (b : Block) {d : Data} (h : b.WrittenAs d) :
    b.isKnown = true := by
  cases b with
  | act a =>
    cases h with
    | act ha =>
      rw [isKnown]
      exact ha.isKnown
  | branch e yes no =>
    cases h with
    | branch _ _ he hyes hno =>
      have hyes := hyes.isKnownAll_of_items (isKnownAll_of_writtenAs yes)
      have hno := hno.isKnownAll_of_items (isKnownAll_of_writtenAs no)
      rw [isKnown, he.isKnown, hyes, hno]
      rfl
  | whileLoop e body =>
    cases h with
    | whileLoop _ _ he hbody =>
      have hbody := hbody.isKnownAll_of_items (isKnownAll_of_writtenAs body)
      rw [isKnown, he.isKnown, hbody]
      rfl
  | repeatLoop times body =>
    cases h with
    | repeatLoop _ _ htimes hbody =>
      have hbody := hbody.isKnownAll_of_items (isKnownAll_of_writtenAs body)
      rw [isKnown, htimes.isKnown, hbody]
      rfl
  | unknown kind raw => cases h

theorem Block.isKnownAll_of_writtenAs (bs : List Block) {items : List Data}
    (h : AllWrittenAs bs items) : isKnownAll bs = true := by
  cases bs with
  | nil => rw [isKnownAll]
  | cons b rest =>
    cases h with
    | cons hb hbs =>
      rw [isKnownAll, isKnown_of_writtenAs b hb, isKnownAll_of_writtenAs rest hbs]
      rfl

end

end Known

namespace Program

/-- The data writes the program: it is a list of data that write its blocks. -/
def WrittenAs (p : Program) (d : Data) : Prop :=
  ∃ items, d = .list items ∧ Block.AllWrittenAs p items

/-- Programs of which all is understood are those that can be written as data, and whatever data
writes a program reads as that program. -/
theorem every_spelling_reads (p : Program) :
    (p.isKnown = true ↔ ∃ d, p.WrittenAs d) ∧ ∀ d, p.WrittenAs d → ofData d = p := by
  refine ⟨⟨fun h => ?_, ?_⟩, ?_⟩
  · exact ⟨p.toData, _, rfl, Block.writtenAs_toItems p h⟩
  · rintro ⟨_, items, rfl, h⟩
    exact Block.isKnownAll_of_writtenAs p h
  · rintro _ ⟨items, rfl, h⟩
    rw [ofData, Block.programOfData]
    exact Block.ofItems_of_writtenAs p h

/-- Every choice differs from what the program itself is turned into. -/
theorem every_spelling_reads_loose :
    let p : Program :=
      [ .repeatLoop (.expr (.arith .sub (.literal (.int 3)) (.literal (.text "1"))))
          [.act (.turn .left), .act (.jump .left (.plain 2))],
        .branch (.compare .le (.literal (.bool true)) (.coord .y)) [] [.act (.turn .back)] ]
    let count : Data := .record
      [ ("op", .text "Minus"), ("type", .text "Binary"), ("right", .text "1"),
        ("left", .record [("type", .text "Number"), ("value", .int 3)]) ]
    let coordinate : Data := .record [("type", .text "Get"), ("name", .text "bunny_y")]
    let condition : Data := .record
      [ ("type", .text "Compare"), ("op", .text "lTe"), ("left", .bool true),
        ("right", coordinate) ]
    let d : Data := .list
      [ .record
          [ ("type", .text "Repeat"), ("value", count),
            ("children", .list
              [ .record [("type", .text "Turn"), ("value", .text "LEFT")],
                .record [("type", .text "FL_Jump"), ("value", .int 2)] ]) ],
        .record
          [ ("type", .text "If"), ("condition", condition),
            ("else", .list [.record [("type", .text "Turn"), ("value", .text "後")]]) ] ]
    p.WrittenAs d ∧ ofData d = p := by
  intro p count coordinate condition d
  have hcount : Expr.WrittenAs (.arith .sub (.literal (.int 3)) (.literal (.text "1"))) count :=
    .arith rfl rfl ⟨"MINUS", by decide, by decide⟩ rfl (.record (.head _) rfl rfl) rfl .bare
  have hcondition : Expr.WrittenAs (.compare .le (.literal (.bool true)) (.coord .y)) condition :=
    .compare rfl rfl ⟨"LTE", by decide, by decide⟩ rfl .bare rfl (.coord rfl rfl)
  have hleft : Action.WrittenAs (.turn .left)
      (.record [("type", .text "Turn"), ("value", .text "LEFT")]) :=
    .turn rfl rfl ⟨"left", by decide, by decide⟩
  have hback : Action.WrittenAs (.turn .back)
      (.record [("type", .text "Turn"), ("value", .text "後")]) :=
    .turn rfl rfl ⟨"後", by decide, by decide⟩
  have hd : p.WrittenAs d := by
    refine ⟨_, rfl, .cons (.repeatLoop rfl rfl (.expr hcount nofun) ?_) (.cons ?_ .nil)⟩
    · exact .list (.cons (.act hleft) (.cons (.act (.jump rfl rfl .plain)) .nil))
    · exact .branch rfl rfl hcondition .missing (.list (.cons (.act hback) .nil))
  exact ⟨hd, (every_spelling_reads p).2 d hd⟩

end Program
end BunnyGrid
