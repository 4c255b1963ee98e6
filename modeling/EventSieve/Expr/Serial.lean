import EventSieve.Expr.Basic

/-!
# The serial form of trees

A tree is stored as nested records. A node is a record of one field that says what it is: `clause`
with the clause's parts, or `and` or `or` with the list of the two operands. A clause without an
event name has no such field, and a literal is stored as its text, which determines its number.
-/

namespace EventSieve

/-- Stored values: texts, lists, and records with named fields. -/
inductive Serial
  | text (s : String)
  | list (items : List Serial)
  | record (fields : List (String × Serial))

/-- The field name of a connective. -/
def Connective.name : Connective → String
  | and => "and"
  | or => "or"

/-- The serial form of a literal. -/
def Literal.serial (l : Literal) : Serial := .record [("text", .text l.text)]

/-- The fields of the serial form of a clause. -/
def Clause.serialFields (c : Clause) : List (String × Serial) :=
  let name := match c.eventName with
    | some name => [("event_name", .text name)]
    | none => []
  name ++ [("property", .text c.property), ("operator", .text c.operator.name),
    ("literal", c.literal.serial)]

/-- The serial form of a tree. -/
def Expr.serial : Expr → Serial
  | clause c => .record [("clause", .record c.serialFields)]
  | join k left right => .record [(k.name, .list [left.serial, right.serial])]

end EventSieve
