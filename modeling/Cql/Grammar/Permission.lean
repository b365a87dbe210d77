/-
GRANT, REVOKE and LIST GRANTS, after their first keywords.
-/
import Cql.Grammar.Name
import Cql.Syntax.Permission

namespace Cql.Grammar

open Rule

def permission : Rule Permission :=
  accept
    (fun lexeme =>
      match lexeme.kind with
      | .keyword name => Permission.ofKeyword? name
      | _ => none)
    "permission" ""

/-- What is given or taken, `permission ON table`. -/
def permissionOnTable : Rule (Permission × TableName) := do
  let permission ← permission
  keyword .ON "after permission"
  return (permission, ← tableName)

/-- What follows GRANT: `permission ON table TO user (WITH GRANT OPTION)?`. -/
def grant : Rule Grant := do
  let (permission, resource) ← permissionOnTable
  keyword .TO "after resource"
  let user ← userName "after TO"
  let withGrantOption ← eat .WITH
  if withGrantOption then
    keyword .GRANT "after WITH"
    keyword .OPTION "after WITH GRANT"
  return { permission, resource, user, withGrantOption }

/-- What follows REVOKE: `permission ON table FROM user`. -/
def revocation : Rule Revocation := do
  let (permission, resource) ← permissionOnTable
  keyword .FROM "after resource"
  return { permission, resource, user := ← userName "after FROM" }

/-- What follows LIST: `GRANTS FOR user`. -/
def grantsOfUser : Rule String := do
  keyword .GRANTS "after LIST"
  keyword .FOR "after LIST GRANTS"
  userName "after FOR"

end Cql.Grammar
