/-
The keywords of CQL.

A word is a keyword whatever the case of its letters.  Some keywords are unreserved: they may stand
where a name is expected, and the names of the native types are among them.

* `Keyword.spelling` — the upper-case form;
* `Keyword.ofUpper?` — the keyword of an upper-case word.  It has a table of its own, which is in step
  with that of the spellings (`Keyword.ofUpper?_eq_some`);
* `Keyword.ofWord?` — the keyword that a word spells, in whatever case (`Keyword.ofWord?_eq_some`).
-/
namespace Cql

inductive Keyword
  | SELECT | FROM | WHERE | AND | INSERT | INTO | VALUES | UPDATE | SET | DELETE | BEGIN
  | UNLOGGED | BATCH | APPLY | USE | TRUNCATE | CREATE | DROP | ALTER | KEYSPACE | TABLE
  | COLUMNFAMILY | INDEX | ON | TO | WITH | USING | LIMIT | ORDER | BY | ASC | DESC | ALLOW
  | FILTERING | IN | TOKEN | COUNT | WRITETIME | TTL | PRIMARY | KEY | COMPACT | STORAGE
  | CLUSTERING | ADD | RENAME | TYPE | GRANT | GRANTS | REVOKE | LIST | FOR | OPTION | DESCRIBE
  | FULL_ACCESS | NO_ACCESS | ASCII | BIGINT | BLOB | BOOLEAN | COUNTER | DECIMAL | DOUBLE
  | FLOAT | INET | INT | TEXT | TIMESTAMP | UUID | VARCHAR | VARINT | TIMEUUID | MAP | TRUE
  | FALSE
  deriving DecidableEq, Hashable

namespace Keyword

/-- The upper-case form of a keyword. -/
def spelling : Keyword → String
  | .SELECT => "SELECT" | .FROM => "FROM" | .WHERE => "WHERE" | .AND => "AND"
  | .INSERT => "INSERT" | .INTO => "INTO" | .VALUES => "VALUES" | .UPDATE => "UPDATE"
  | .SET => "SET" | .DELETE => "DELETE" | .BEGIN => "BEGIN" | .UNLOGGED => "UNLOGGED"
  | .BATCH => "BATCH" | .APPLY => "APPLY" | .USE => "USE" | .TRUNCATE => "TRUNCATE"
  | .CREATE => "CREATE" | .DROP => "DROP" | .ALTER => "ALTER" | .KEYSPACE => "KEYSPACE"
  | .TABLE => "TABLE" | .COLUMNFAMILY => "COLUMNFAMILY" | .INDEX => "INDEX" | .ON => "ON"
  | .TO => "TO" | .WITH => "WITH" | .USING => "USING" | .LIMIT => "LIMIT" | .ORDER => "ORDER"
  | .BY => "BY" | .ASC => "ASC" | .DESC => "DESC" | .ALLOW => "ALLOW" | .FILTERING => "FILTERING"
  | .IN => "IN" | .TOKEN => "TOKEN" | .COUNT => "COUNT" | .WRITETIME => "WRITETIME"
  | .TTL => "TTL" | .PRIMARY => "PRIMARY" | .KEY => "KEY" | .COMPACT => "COMPACT"
  | .STORAGE => "STORAGE" | .CLUSTERING => "CLUSTERING" | .ADD => "ADD" | .RENAME => "RENAME"
  | .TYPE => "TYPE" | .GRANT => "GRANT" | .GRANTS => "GRANTS" | .REVOKE => "REVOKE"
  | .LIST => "LIST" | .FOR => "FOR" | .OPTION => "OPTION" | .DESCRIBE => "DESCRIBE"
  | .FULL_ACCESS => "FULL_ACCESS" | .NO_ACCESS => "NO_ACCESS" | .ASCII => "ASCII"
  | .BIGINT => "BIGINT" | .BLOB => "BLOB" | .BOOLEAN => "BOOLEAN" | .COUNTER => "COUNTER"
  | .DECIMAL => "DECIMAL" | .DOUBLE => "DOUBLE" | .FLOAT => "FLOAT" | .INET => "INET"
  | .INT => "INT" | .TEXT => "TEXT" | .TIMESTAMP => "TIMESTAMP" | .UUID => "UUID"
  | .VARCHAR => "VARCHAR" | .VARINT => "VARINT" | .TIMEUUID => "TIMEUUID" | .MAP => "MAP"
  | .TRUE => "TRUE" | .FALSE => "FALSE"

/-- Every keyword once. -/
def all : List Keyword :=
  [.SELECT, .FROM, .WHERE, .AND, .INSERT, .INTO, .VALUES, .UPDATE, .SET, .DELETE, .BEGIN,
  .UNLOGGED, .BATCH, .APPLY, .USE, .TRUNCATE, .CREATE, .DROP, .ALTER, .KEYSPACE, .TABLE,
  .COLUMNFAMILY, .INDEX, .ON, .TO, .WITH, .USING, .LIMIT, .ORDER, .BY, .ASC, .DESC, .ALLOW,
  .FILTERING, .IN, .TOKEN, .COUNT, .WRITETIME, .TTL, .PRIMARY, .KEY, .COMPACT, .STORAGE,
  .CLUSTERING, .ADD, .RENAME, .TYPE, .GRANT, .GRANTS, .REVOKE, .LIST, .FOR, .OPTION, .DESCRIBE,
  .FULL_ACCESS, .NO_ACCESS, .ASCII, .BIGINT, .BLOB, .BOOLEAN, .COUNTER, .DECIMAL, .DOUBLE, .FLOAT,
  .INET, .INT, .TEXT, .TIMESTAMP, .UUID, .VARCHAR, .VARINT, .TIMEUUID, .MAP, .TRUE, .FALSE]

theorem mem_all (keyword : Keyword) : keyword ∈ all := by
  cases keyword <;> decide

/-- The keyword of an upper-case word. -/
def ofUpper? : String → Option Keyword
  | "SELECT" => some .SELECT | "FROM" => some .FROM | "WHERE" => some .WHERE | "AND" => some .AND
  | "INSERT" => some .INSERT | "INTO" => some .INTO | "VALUES" => some .VALUES
  | "UPDATE" => some .UPDATE | "SET" => some .SET | "DELETE" => some .DELETE
  | "BEGIN" => some .BEGIN | "UNLOGGED" => some .UNLOGGED | "BATCH" => some .BATCH
  | "APPLY" => some .APPLY | "USE" => some .USE | "TRUNCATE" => some .TRUNCATE
  | "CREATE" => some .CREATE | "DROP" => some .DROP | "ALTER" => some .ALTER
  | "KEYSPACE" => some .KEYSPACE | "TABLE" => some .TABLE | "COLUMNFAMILY" => some .COLUMNFAMILY
  | "INDEX" => some .INDEX | "ON" => some .ON | "TO" => some .TO | "WITH" => some .WITH
  | "USING" => some .USING | "LIMIT" => some .LIMIT | "ORDER" => some .ORDER | "BY" => some .BY
  | "ASC" => some .ASC | "DESC" => some .DESC | "ALLOW" => some .ALLOW
  | "FILTERING" => some .FILTERING | "IN" => some .IN | "TOKEN" => some .TOKEN
  | "COUNT" => some .COUNT | "WRITETIME" => some .WRITETIME | "TTL" => some .TTL
  | "PRIMARY" => some .PRIMARY | "KEY" => some .KEY | "COMPACT" => some .COMPACT
  | "STORAGE" => some .STORAGE | "CLUSTERING" => some .CLUSTERING | "ADD" => some .ADD
  | "RENAME" => some .RENAME | "TYPE" => some .TYPE | "GRANT" => some .GRANT
  | "GRANTS" => some .GRANTS | "REVOKE" => some .REVOKE | "LIST" => some .LIST | "FOR" => some .FOR
  | "OPTION" => some .OPTION | "DESCRIBE" => some .DESCRIBE | "FULL_ACCESS" => some .FULL_ACCESS
  | "NO_ACCESS" => some .NO_ACCESS | "ASCII" => some .ASCII | "BIGINT" => some .BIGINT
  | "BLOB" => some .BLOB | "BOOLEAN" => some .BOOLEAN | "COUNTER" => some .COUNTER
  | "DECIMAL" => some .DECIMAL | "DOUBLE" => some .DOUBLE | "FLOAT" => some .FLOAT
  | "INET" => some .INET | "INT" => some .INT | "TEXT" => some .TEXT
  | "TIMESTAMP" => some .TIMESTAMP | "UUID" => some .UUID | "VARCHAR" => some .VARCHAR
  | "VARINT" => some .VARINT | "TIMEUUID" => some .TIMEUUID | "MAP" => some .MAP
  | "TRUE" => some .TRUE | "FALSE" => some .FALSE
  | _ => none

/-- The keyword that a word spells.  Only the case of ASCII letters is ignored. -/
def ofWord? (word : String) : Option Keyword := ofUpper? word.toUpper

/-- The two tables are in step. -/
theorem ofUpper?_eq_some {upper : String} {keyword : Keyword} :
    ofUpper? upper = some keyword ↔ upper = keyword.spelling := by
  constructor
  · intro found
    unfold ofUpper? at found
    split at found <;> cases found <;> rfl
  · rintro rfl
    cases keyword <;> rfl

theorem ofWord?_eq_some {word : String} {keyword : Keyword} :
    ofWord? word = some keyword ↔ word.toUpper = keyword.spelling := ofUpper?_eq_some

theorem toUpper_spelling (keyword : Keyword) : keyword.spelling.toUpper = keyword.spelling := by
  cases keyword <;> decide +kernel

/-- Each keyword is found under its spelling. -/
theorem ofWord?_spelling (keyword : Keyword) : ofWord? keyword.spelling = some keyword :=
  ofWord?_eq_some.2 keyword.toUpper_spelling

/-- Does the keyword name a native column type? -/
def isNativeType : Keyword → Bool
  | .ASCII | .BIGINT | .BLOB | .BOOLEAN | .COUNTER | .DECIMAL | .DOUBLE | .FLOAT | .INET | .INT
  | .TEXT | .TIMESTAMP | .UUID | .VARCHAR | .VARINT | .TIMEUUID => true
  | _ => false

/-- May the keyword stand where a name is expected? -/
def isUnreserved : Keyword → Bool
  | .KEY | .CLUSTERING | .COUNT | .TTL | .COMPACT | .STORAGE | .TYPE | .VALUES | .WRITETIME
  | .MAP | .LIST | .FILTERING | .GRANTS | .OPTION | .DESCRIBE | .FULL_ACCESS | .NO_ACCESS => true
  | keyword => keyword.isNativeType

end Keyword

end Cql
