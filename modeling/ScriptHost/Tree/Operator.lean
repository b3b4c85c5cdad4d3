/-!
# Operators

The operators of the script language: 36 binary ones (the assignment forms among them), 8 that
stand before their operand and 2 that stand behind it. Each operator has a source text
(`text`) and a name under which trees are stored (`name`); names read back (`ofName?_name`),
texts need not (`BinaryOperator.text_assignExpr`).
-/

set_option autoImplicit false

namespace ScriptHost.Tree

/-! ## Binary operators -/

/-- The binary operators. `assign` is the `=` of a declaration and `assignExpr` the `=` of an
expression. -/
inductive BinaryOperator where
  | assign
  | assignExpr
  | equal
  | notEqual
  | strictEqual
  | strictNotEqual
  | lessThan
  | lessThanOrEqual
  | greaterThan
  | greaterThanOrEqual
  | and
  | or
  | instanceOf
  | memberOf
  | add
  | addAssign
  | subtract
  | subtractAssign
  | multiply
  | multiplyAssign
  | divide
  | divideAssign
  | modulo
  | moduloAssign
  | leftShift
  | leftShiftAssign
  | rightShift
  | rightShiftAssign
  | unsignedRightShift
  | unsignedRightShiftAssign
  | bitAnd
  | bitAndAssign
  | bitOr
  | bitOrAssign
  | bitXor
  | bitXorAssign
  deriving DecidableEq

namespace BinaryOperator

/-- Every binary operator, in table order. -/
def all : List BinaryOperator :=
  [assign, assignExpr, equal, notEqual, strictEqual, strictNotEqual, lessThan, lessThanOrEqual,
    greaterThan, greaterThanOrEqual, and, or, instanceOf, memberOf, add, addAssign, subtract,
    subtractAssign, multiply, multiplyAssign, divide, divideAssign, modulo, moduloAssign,
    leftShift, leftShiftAssign, rightShift, rightShiftAssign, unsignedRightShift,
    unsignedRightShiftAssign, bitAnd, bitAndAssign, bitOr, bitOrAssign, bitXor, bitXorAssign]

/-- The operator as it stands in source text. -/
def text : BinaryOperator → String
  | assign => "="
  | assignExpr => "="
  | equal => "=="
  | notEqual => "!="
  | strictEqual => "==="
  | strictNotEqual => "!=="
  | lessThan => "<"
  | lessThanOrEqual => "<="
  | greaterThan => ">"
  | greaterThanOrEqual => ">="
  | and => "&&"
  | or => "||"
  | instanceOf => "instanceof"
  | memberOf => "in"
  | add => "+"
  | addAssign => "+="
  | subtract => "-"
  | subtractAssign => "-="
  | multiply => "*"
  | multiplyAssign => "*="
  | divide => "/"
  | divideAssign => "/="
  | modulo => "%"
  | moduloAssign => "%="
  | leftShift => "<<"
  | leftShiftAssign => "<<="
  | rightShift => ">>"
  | rightShiftAssign => ">>="
  | unsignedRightShift => ">>>"
  | unsignedRightShiftAssign => ">>>="
  | bitAnd => "&"
  | bitAndAssign => "&="
  | bitOr => "|"
  | bitOrAssign => "|="
  | bitXor => "^"
  | bitXorAssign => "^="

/-- The name under which the operator is stored. -/
def name : BinaryOperator → String
  | assign => "Assign"
  | assignExpr => "AssignExpr"
  | equal => "Equal"
  | notEqual => "NotEqual"
  | strictEqual => "StrictEqual"
  | strictNotEqual => "StrictNotEqual"
  | lessThan => "LessThan"
  | lessThanOrEqual => "LessThanOrEqual"
  | greaterThan => "GreaterThan"
  | greaterThanOrEqual => "GreaterThanOrEqual"
  | and => "And"
  | or => "Or"
  | instanceOf => "InstanceOf"
  | memberOf => "In"
  | add => "Add"
  | addAssign => "AddAssign"
  | subtract => "Subtract"
  | subtractAssign => "SubtractAssign"
  | multiply => "Multiply"
  | multiplyAssign => "MultiplyAssign"
  | divide => "Divide"
  | divideAssign => "DivideAssign"
  | modulo => "Modulo"
  | moduloAssign => "ModuloAssign"
  | leftShift => "LeftShift"
  | leftShiftAssign => "LeftShiftAssign"
  | rightShift => "RightShift"
  | rightShiftAssign => "RightShiftAssign"
  | unsignedRightShift => "UnsignedRightShift"
  | unsignedRightShiftAssign => "UnsignedRightShiftAssign"
  | bitAnd => "BitAnd"
  | bitAndAssign => "BitAndAssign"
  | bitOr => "BitOr"
  | bitOrAssign => "BitOrAssign"
  | bitXor => "BitXor"
  | bitXorAssign => "BitXorAssign"

/-- The operator stored under a name. -/
def ofName? (s : String) : Option BinaryOperator := all.find? (·.name == s)

theorem mem_all (o : BinaryOperator) : o ∈ all := by cases o <;> decide

theorem ofName?_name (o : BinaryOperator) : ofName? o.name = some o := by cases o <;> decide

/-- Both assignments print alike. -/
theorem text_assignExpr : assignExpr.text = assign.text := rfl

end BinaryOperator

/-! ## Operators before the operand -/

/-- The operators that stand before their operand. -/
inductive UnaryOperator where
  | typeOf
  | void
  | negate
  | plus
  | not
  | bitwiseNot
  | increment
  | decrement
  deriving DecidableEq

namespace UnaryOperator

/-- Every operator that stands before its operand, in table order. -/
def all : List UnaryOperator :=
  [typeOf, void, negate, plus, not, bitwiseNot, increment, decrement]

/-- The operator as it stands in source text; a keyword brings its space along. -/
def text : UnaryOperator → String
  | typeOf => "typeof "
  | void => "void "
  | negate => "-"
  | plus => "+"
  | not => "!"
  | bitwiseNot => "~"
  | increment => "++"
  | decrement => "--"

/-- The name under which the operator is stored. -/
def name : UnaryOperator → String
  | typeOf => "Typeof"
  | void => "Void"
  | negate => "Negate"
  | plus => "Plus"
  | not => "Not"
  | bitwiseNot => "BitwiseNot"
  | increment => "Increment"
  | decrement => "Decrement"

/-- The operator stored under a name. -/
def ofName? (s : String) : Option UnaryOperator := all.find? (·.name == s)

theorem mem_all (o : UnaryOperator) : o ∈ all := by cases o <;> decide

theorem ofName?_name (o : UnaryOperator) : ofName? o.name = some o := by cases o <;> decide

end UnaryOperator

/-! ## Operators behind the operand -/

/-- The operators that stand behind their operand. -/
inductive UpdateOperator where
  | increment
  | decrement
  deriving DecidableEq

namespace UpdateOperator

/-- Every operator that stands behind its operand, in table order. -/
def all : List UpdateOperator := [increment, decrement]

/-- The operator as it stands in source text. -/
def text : UpdateOperator → String
  | increment => "++"
  | decrement => "--"

/-- The name under which the operator is stored. -/
def name : UpdateOperator → String
  | increment => "Increment"
  | decrement => "Decrement"

/-- The operator stored under a name. -/
def ofName? (s : String) : Option UpdateOperator := all.find? (·.name == s)

theorem mem_all (o : UpdateOperator) : o ∈ all := by cases o <;> decide

theorem ofName?_name (o : UpdateOperator) : ofName? o.name = some o := by cases o <;> decide

end UpdateOperator

end ScriptHost.Tree
