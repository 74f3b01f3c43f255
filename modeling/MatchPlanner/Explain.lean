import MatchPlanner.Plan.Printer
import MatchPlanner.Planning.Arena
import MatchPlanner.Quantity

/-! A plan drawn as a tree, one operator to a line with the rows expected of it. -/

namespace MatchPlanner

/-- Where a line stands among those of its parent. -/
inductive Branch where
  | root
  | inner
  | last

def Branch.connector : Branch → String
  | .root => ""
  | .inner => "├── "
  | .last => "└── "

/-- What the lines below a line start with, after the indentation of the line itself. -/
def Branch.continuation : Branch → String
  | .root => ""
  | .inner => "│   "
  | .last => "    "

variable {ν : Type} [Quantity ν]

def explainLine (arena : Arena ν) (indentation : String) (branch : Branch) (plan : Plan) : String :=
  let rows := match arena.cardinality plan.id with
    | .ok rows => Quantity.fixed 1 rows
    | .error _ => "?"
  indentation ++ branch.connector ++ plan.id.render ++ " " ++ plan.describe ++ " → " ++ rows ++ " rows\n"

def explainTree (arena : Arena ν) (indentation : String) (branch : Branch) : Plan → String
  | .leaf id operator => explainLine arena indentation branch (.leaf id operator)
  | .step id operator input =>
    explainLine arena indentation branch (.step id operator input) ++
      explainTree arena (indentation ++ branch.continuation) .last input
  | .trail id parameters input inner =>
    let below := indentation ++ branch.continuation
    explainLine arena indentation branch (.trail id parameters input inner) ++ explainTree arena below .inner input ++
      below ++ "│   (per repetition)\n" ++ explainTree arena below .last inner
  | .join id operator left right =>
    let below := indentation ++ branch.continuation
    explainLine arena indentation branch (.join id operator left right) ++ explainTree arena below .inner left ++
      explainTree arena below .last right

/-- The tree of a whole plan. The plan inside a trail stands below the input of the trail. -/
def Plan.explain (plan : Plan) (arena : Arena ν) : String := explainTree arena "" .root plan

end MatchPlanner
