/-! The texts in which the command line explains itself. -/
namespace BunnyGrid.Command

/-- The lines that begin every explanation. -/
def usageLines : List String :=
  [ "usage: run_game.py [-h] [--demo] [--map MAP] [--program PROGRAM]",
    "                   [--program2 PROGRAM2]",
    "                   [--sample \x7brepeat,runaway,straight,while_y,zigzag\x7d]",
    "                   [--step] [--replay] [--step-limit STEP_LIMIT]",
    "                   [--output OUTPUT] [--plot PLOT] [--summary SUMMARY] [-v]" ]

/-- The lines of the help that come after the usage. -/
def helpLines : List String :=
  [ "",
    "RoboBunny - run block programs on a grid map",
    "",
    "options:",
    "  -h, --help            show this help message and exit",
    "  --demo                Run all sample programs",
    "  --map MAP             Map descriptor JSON file (default: sample map)",
    "  --program PROGRAM     Program JSON file for bunny 1",
    "  --program2 PROGRAM2   Program JSON file for bunny 2",
    "  --sample \x7brepeat,runaway,straight,while_y,zigzag\x7d",
    "                        Use a sample program for bunny 1",
    "  --step                Execute one action at a time",
    "  --replay              Print a text frame per event",
    "  --step-limit STEP_LIMIT",
    "                        Runaway-loop guard (default: 1000)",
    "  --output OUTPUT       Directory to save the result JSON in",
    "  --plot PLOT           Save a plot of the final world to this file",
    "  --summary SUMMARY     Summarize results saved in a directory",
    "  -v, --verbose         Debug logging",
    "",
    "Examples:",
    "  python run_game.py --demo",
    "  python run_game.py --sample zigzag --replay",
    "  python run_game.py --map map.json --program bunny1.json --program2 bunny2.json",
    "  python run_game.py --summary ./robobunny_output",
    "        " ]

/-- Lines as text, each with its end. -/
def linesText (lines : List String) : String := String.join (lines.map (· ++ "\n"))

def usageText : String := linesText usageLines

def helpText : String := linesText (usageLines ++ helpLines)

/-- The text of a usage error. -/
def errorText (message : String) : String := usageText ++ s!"run_game.py: error: {message}\n"

end BunnyGrid.Command
