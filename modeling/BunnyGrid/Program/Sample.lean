import BunnyGrid.Program.Block

/-! The programs that ship with the game, for the sample board. -/
namespace BunnyGrid.Program

private def block (type : String) (fields : List (String × Data)) : Data :=
  .record (("type", .text type) :: fields)

private def hop (kind : String) : Data := block kind [("value", .int 2)]

/-- The sample programs as they are shown to players. -/
def samples : List (String × Data) :=
  [ ("straight", .list (List.replicate 5 (hop "F_Jump"))),
    ("repeat", .list [block "Repeat" [("times", .int 5), ("body", .list [hop "F_Jump"])]]),
    ("zigzag", .list (["F_Jump", "FL_Jump", "FR_Jump", "FR_Jump", "FL_Jump"].map hop)),
    ("while_y", .list
      [ block "While"
        [ ("condition", block "Compare"
            [ ("op", .text "GT"), ("left", block "Get" [("name", .text "bunny_y")]),
              ("right", .int 8) ]),
          ("body", .list
            [ hop "F_Jump",
              block "ChangeVar" [("name", .text "hops"), ("delta", .int 1)] ]) ] ]),
    ("runaway", .list
      [ block "While"
        [("condition", block "Boolean" [("value", .bool true)]), ("body", .list [])] ]) ]

/-- The sample program of a name. -/
def sample? (name : String) : Option Data := samples.lookup name

end BunnyGrid.Program
