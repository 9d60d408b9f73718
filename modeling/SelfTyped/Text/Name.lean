/-
SelfTyped.Text.Name — names of an analysed program, and the names that
the language itself gives a meaning to.

A name is its text: two occurrences of one text are one name.  What an
interned name is, and why comparing identities agrees with comparing
texts, is the subject of `SelfTyped.Text.Table`.
-/

namespace SelfTyped

/-- A class, method, variable or file name. -/
abbrev Name := String

namespace Known

/-- The root of every class hierarchy. -/
abbrev object : Name := "Object"

/-- The built-in class of input and output. -/
abbrev inputOutput : Name := "IO"

/-- The built-in class of integers. -/
abbrev int : Name := "Int"

/-- The built-in class of truth values. -/
abbrev bool : Name := "Bool"

/-- The built-in class of strings. -/
abbrev string : Name := "String"

/-- The type that stands for the class under consideration. -/
abbrev selfType : Name := "SELF_TYPE"

/-- The variable that holds the receiver. -/
abbrev self : Name := "self"

/-- The class that every program has to declare. -/
abbrev main : Name := "Main"

/-- The type of a missing expression. -/
abbrev noType : Name := "_no_type"

/-- The type of the raw slot in which a basic value is kept. -/
abbrev rawSlot : Name := "_prim_slot"

/-- The file that built-in classes are attributed to. -/
abbrev builtinFile : Name := "<basic class>"

end Known

namespace Name

/-- `Int`, `Bool` and `String`: classes whose values compare only with their own kind. -/
def isBasicValue (n : Name) : Bool :=
  n == Known.int || n == Known.bool || n == Known.string

theorem isBasicValue_iff {n : Name} :
    n.isBasicValue = true ↔ n ∈ [Known.int, Known.bool, Known.string] := by
  simp [isBasicValue, or_assoc]

/-- The names that no class may inherit from. -/
def isSealed (n : Name) : Bool :=
  n.isBasicValue || n == Known.selfType

end Name

end SelfTyped
