import HostDecl.Validation

/-!
# Validation reports

The issues of a refused value as a text: how many there are, and each with its location and its
problem.
-/

namespace HostDecl

/-- The text of a step. -/
def Step.text : Step → Text
  | .key name => name
  | .index i => toString i

/-- An issue on two lines. -/
def Issue.text (issue : Issue) : Text :=
  Text.intercalate "." (issue.location.map Step.text) ++ "\n  " ++ issue.problem.message ++
    " [type=" ++ issue.problem.code ++ "]\n"

/-- The number of issues. -/
def issueCount (issues : List Issue) : String :=
  toString issues.length ++ if issues.length = 1 then " validation error" else " validation errors"

/-- The report on a refused value of a model. -/
def issueReport (model : String) (issues : List Issue) : Text :=
  issueCount issues ++ " for " ++ model ++ "\n" ++ Text.join (issues.map Issue.text)

end HostDecl
