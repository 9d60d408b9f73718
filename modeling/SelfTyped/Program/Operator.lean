/-
SelfTyped.Program.Operator — the binary operators of the language.
-/

namespace SelfTyped

/-- A binary operator. -/
inductive Operator where
  | plus
  | minus
  | times
  | divide
  | less
  | lessOrEqual
  | equal
  deriving DecidableEq, Repr

namespace Operator

/-- Whether an operator computes a number; the others compare. -/
def isArithmetic : Operator → Bool
  | .plus | .minus | .times | .divide => true
  | .less | .lessOrEqual | .equal => false

theorem isArithmetic_iff {op : Operator} :
    op.isArithmetic = true ↔ op ∈ [.plus, .minus, .times, .divide] := by
  cases op <;> decide

theorem not_isArithmetic_iff {op : Operator} :
    op.isArithmetic = false ↔ op ∈ [.less, .lessOrEqual, .equal] := by
  cases op <;> decide

/-- An operator as it is written in a program. -/
def sign : Operator → String
  | .plus => "+"
  | .minus => "-"
  | .times => "*"
  | .divide => "/"
  | .less => "<"
  | .lessOrEqual => "<="
  | .equal => "="

end Operator

end SelfTyped
