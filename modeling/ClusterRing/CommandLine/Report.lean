import ClusterRing.ControlLoop
import ClusterRing.Locator.Report
import ClusterRing.Text.Fixed

/-!
# Reports

What a command found out, and the text it prints: one line for each key, a list
of nodes, or a table.
-/

namespace ClusterRing.CommandLine

/-- What a command found out. -/
inductive Report where
  /-- The node of each key. -/
  | located (keys : List (String × Option Address))
  /-- The nodes to try for a key. -/
  | sequence (key : String) (nodes : List Address)
  /-- How keys are spread over the nodes. -/
  | inspected (rows : List NodeReport)
  /-- What a script did, and the node of each key after it. -/
  | replayed (tally : ControlLoop.Tally) (kind : Option Migration.Kind)
      (keys : List (String × Option Address))

namespace Report

/-- A line for a key. -/
def keyLine (key : String) (node : Option Address) : String :=
  key ++ "\t" ++ (node.elim "<no node>" Address.text) ++ "\n"

/-- The lines for keys. -/
def keyLines (keys : List (String × Option Address)) : String :=
  String.join (keys.map fun (key, node) => keyLine key node)

/-- A line of the table, with the cells in columns. -/
def tableLine (node points staged share : String) : String :=
  Text.padRight 24 node ++ " " ++ Text.padLeft 7 points ++ " " ++ Text.padLeft 7 staged ++ " " ++
    Text.padLeft 8 share ++ "\n"

/-- A row of the table. The share is in percent with three places. -/
def tableRow (row : NodeReport) : String :=
  tableLine row.node.text (toString row.points) (toString row.staged)
    (Text.fixed 3 (100 * row.span) circleSize)

/-- The text of a report. -/
def render : Report → String
  | .located keys => keyLines keys
  | .sequence key nodes =>
    let line := fun (index, node) => "  " ++ toString (index : Nat) ++ "\t" ++ Address.text node ++ "\n"
    key ++ "\n" ++ String.join ((nodes.zipIdx.map Prod.swap).map line)
  | .inspected rows =>
    tableLine "node" "points" "staged" "share%" ++ String.join (rows.map tableRow)
  | .replayed tally kind keys =>
    s!"published={tally.published} unchanged={tally.unchanged} " ++
      "migration=" ++ (kind.elim "none" Migration.Kind.text) ++ "\n" ++ keyLines keys

end Report

end ClusterRing.CommandLine
