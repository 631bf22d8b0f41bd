import WorkspaceLint.Diagnostic
import WorkspaceLint.Json.Writer

/-!
# Reports for programs

Diagnostics as a JSON list of objects with a kind, a location and a message each, in their order. Without diagnostics the report
is empty.
-/

namespace WorkspaceLint.Report

/-- The members of the object for a diagnostic. -/
def members (d : Diagnostic) : List (String × String) :=
  [("kind", d.kind.label), ("location", d.location), ("message", d.message)]

/-- Diagnostics as JSON. -/
def json (ds : List Diagnostic) : String := if ds = [] then "" else Json.listText (ds.map members)

end WorkspaceLint.Report
