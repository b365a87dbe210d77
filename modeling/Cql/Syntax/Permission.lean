/-
Permissions on tables, and the statements that give and take them.
-/
import Cql.Syntax.Identifier
import Cql.Token.Keyword

namespace Cql

inductive Permission
  | describe | use | create | alter | drop | select | insert | update | delete
  | fullAccess | noAccess
  deriving DecidableEq

namespace Permission

def keyword : Permission → Keyword
  | describe => .DESCRIBE
  | use => .USE
  | create => .CREATE
  | alter => .ALTER
  | drop => .DROP
  | select => .SELECT
  | insert => .INSERT
  | update => .UPDATE
  | delete => .DELETE
  | fullAccess => .FULL_ACCESS
  | noAccess => .NO_ACCESS

def render (permission : Permission) : String := permission.keyword.spelling

/-- Every permission once. -/
def all : List Permission :=
  [describe, use, create, alter, drop, select, insert, update, delete, fullAccess, noAccess]

/-- The permission that a keyword names. -/
def ofKeyword? (keyword : Keyword) : Option Permission := all.find? (·.keyword = keyword)

theorem ofKeyword?_keyword (permission : Permission) :
    ofKeyword? permission.keyword = some permission := by
  cases permission <;> decide

end Permission

/-- The statement `GRANT permission ON resource TO user`. -/
structure Grant where
  permission : Permission
  resource : TableName
  user : String
  withGrantOption : Bool
  deriving BEq

/-- The statement `REVOKE permission ON resource FROM user`. -/
structure Revocation where
  permission : Permission
  resource : TableName
  user : String
  deriving BEq

end Cql
