import WorkspaceLint.Diagnostic

/-!
# Reports for readers

Diagnostics as text: a line with their number, and then a section for each kind that occurs, with a title and the diagnostics of
the kind in their order. Without diagnostics the report is empty.
-/

namespace WorkspaceLint.Report

/-- The title of a section. -/
def title : DiagnosticKind → String
  | .structureInvalid => "项目结构"
  | .brokenScaffold => "损坏的脚手架"
  | .namingMismatch => "文件命名"
  | .missingReferencedFile => "缺失的引用文件"

/-- A diagnostic after a heading; its location follows when the message does not name it. -/
def headed (heading : String) (d : Diagnostic) : String :=
  heading ++ ": " ++ d.message ++ (if d.namesLocation then "" else " (文件: " ++ d.location ++ ")")

/-- A diagnostic as text. -/
def plainDiagnostic (d : Diagnostic) : String :=
  match d.kind with
  | .structureInvalid => "结构无效: " ++ d.location ++ "\n    - " ++ d.message
  | .brokenScaffold => d.message
  | .namingMismatch => headed "命名错误" d
  | .missingReferencedFile => headed "缺失的合约文件" d

/-- The lines of the section for a kind: none when no diagnostic is of the kind. -/
def sectionLines (ds : List Diagnostic) (kind : DiagnosticKind) : List String :=
  let members := ds.filter (·.kind = kind)
  if members = [] then []
  else ["", "[" ++ title kind ++ "] " ++ toString members.length ++ " 个"] ++ members.map plainDiagnostic

/-- Diagnostics as text. -/
def plain (ds : List Diagnostic) : String :=
  if ds = [] then ""
  else "\n".intercalate
    (("Linter 发现 " ++ toString ds.length ++ " 个问题:") :: DiagnosticKind.all.flatMap (sectionLines ds))

end WorkspaceLint.Report
