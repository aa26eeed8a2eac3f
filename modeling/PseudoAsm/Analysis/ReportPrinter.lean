import PseudoAsm.Analysis.Report
import PseudoAsm.Json.Writer

/-!
# Printing reports

The two printed forms of a control-flow report.

* `Report.json` — the report as a JSON value, its members in a fixed order;
* `Report.text` — the lines of the program, its edges, and the addresses that deserve attention.
-/

namespace PseudoAsm

/-! ### JSON -/

/-- The name of an edge kind in JSON. -/
def EdgeKind.key : EdgeKind → String
  | .fallthrough => "fallthrough"
  | .branch => "branch"
  | .conditional => "cond_branch"
  | .call => "call"

/-- A set of addresses in JSON. -/
def addressesJson (addresses : List Nat) : Json.Value :=
  .list (addresses.map .number)

/-- A line of a report in JSON. -/
def ReportLine.json (line : ReportLine) : Json.Value :=
  .object [("addr", .number line.address), ("text", .text line.text),
    ("reachable", .bool line.reachable)]

/-- An edge in JSON. -/
def Edge.json (edge : Edge) : Json.Value :=
  .object [("from", .number edge.source), ("to", .number edge.target),
    ("kind", .text edge.kind.key)]

/-- A report in JSON. -/
def Report.json (report : Report) : Json.Value :=
  .object [
    ("name", .text report.name),
    ("lines", .list (report.lines.map ReportLine.json)),
    ("reachable", addressesJson report.findings.reachable),
    ("edges", .list (report.findings.edges.map Edge.json)),
    ("subroutines", addressesJson report.findings.subroutines),
    ("rets", addressesJson report.findings.returns),
    ("ends", addressesJson report.findings.ends),
    ("opaque", addressesJson report.findings.undetermined)]

/-! ### Text -/

/-- The name of an edge kind in text. -/
def EdgeKind.title : EdgeKind → String
  | .fallthrough => "Fallthrough"
  | .branch => "Branch"
  | .conditional => "CondBranch"
  | .call => "Call"

/-- A line of a report: an exclamation mark if it is unreachable, `sub` if it is called, and the
instruction after its address. -/
def ReportLine.printed (subroutines : List Nat) (line : ReportLine) : String :=
  (if line.reachable then " " else "!") ++ " "
    ++ (if subroutines.contains line.address then "sub " else "    ")
    ++ Text.alignRight 4 (toString line.address) ++ ":  " ++ line.text ++ "\n"

/-- An edge of a report. -/
def Edge.printed (edge : Edge) : String :=
  "  " ++ Text.alignRight 4 (toString edge.source) ++ " -> "
    ++ Text.alignLeft 4 (toString edge.target) ++ " " ++ edge.kind.title ++ "\n"

/-- A titled list of addresses; nothing if there is none. -/
def addressesText (title : String) (addresses : List Nat) : String :=
  if addresses.isEmpty then ""
  else title ++ ": " ++ String.intercalate ", " (addresses.map fun a => toString a) ++ "\n"

/-- A report as text. -/
def Report.text (report : Report) : String :=
  heading report.name
    ++ String.join (report.lines.map (ReportLine.printed report.findings.subroutines))
    ++ "edges:\n"
    ++ String.join (report.findings.edges.map Edge.printed)
    ++ addressesText "unreachable" report.unreachable
    ++ addressesText "opaque" report.findings.undetermined

end PseudoAsm
