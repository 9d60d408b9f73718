/-
SelfTyped.Program.Construct — where the constructs of a program are.

Classes, features, formal parameters, branches of `case` expressions and
expressions are constructs.  A construct has others directly inside it, in
the order in which they are written, and is addressed by the numbers that
lead to it, the number of a class first.

A source program has positions for constructs, and what belongs in a
position may be left out.  A site is a position together with the lines that
the constructs around it state (`Source.Site`), and from these comes the
line of whatever ends up there.
-/
import SelfTyped.Program.Lowering
import SelfTyped.Source.Extent

namespace SelfTyped

/-- What an address leads to, from a node whose parts are given. -/
def descend {α : Type} (parts : α → List α) : List Nat → α → Option α
  | [], node => some node
  | number :: address, node => (parts node)[number]?.bind (descend parts address)

/-! ## Programs -/

/-- A part of a program that has a line. -/
inductive Construct where
  | classDecl (decl : Class)
  | feature (decl : Feature)
  | formal (decl : Formal)
  | branch (decl : Branch)
  | expr (e : Expr)

/-- The constructs directly inside an expression. -/
def Form.constructs : Form → List Construct
  | .case scrutinee branches => .expr scrutinee :: branches.map .branch
  | form => form.children.map .expr

/-- The constructs directly inside a feature. -/
def Feature.constructs : Feature → List Construct
  | .attr decl => [.expr decl.init]
  | .method decl => decl.formals.map .formal ++ [.expr decl.body]

namespace Construct

/-- The line of a construct. -/
def line : Construct → Nat
  | .classDecl decl => decl.line
  | .feature decl => decl.line
  | .formal decl => decl.line
  | .branch decl => decl.line
  | .expr e => e.line

/-- The constructs directly inside a construct. -/
def parts : Construct → List Construct
  | .classDecl decl => decl.features.map .feature
  | .feature decl => decl.constructs
  | .formal _ => []
  | .branch decl => [.expr decl.body]
  | .expr e => e.form.constructs

end Construct

/-- The construct at an address. -/
def Program.construct? (p : Program) : List Nat → Option Construct
  | [] => none
  | number :: address =>
    (p.classes.map Construct.classDecl)[number]?.bind (descend Construct.parts address)

/-! ## Source programs -/

/-- A branch of a `case` expression that starts at line `line`. -/
def Branch.ofSource (line : Nat) (branch : Source.Branch) : Branch :=
  { line := branch.line.getD line
    name := branch.name
    type := branch.type
    body := Expr.ofSource (branch.line.getD line) branch.body }

/-- The line of a construct, where the constructs around it state these lines, the innermost
first: a line that none of them states is the default. -/
def inheritedLine : List (Option Nat) → Nat
  | [] => Class.defaultLine
  | some line :: _ => line
  | none :: around => inheritedLine around

namespace Source

/-- A part of a source program that may state its line. -/
inductive Construct where
  | classDecl (decl : Class)
  | feature (decl : Feature)
  | formal (decl : Formal)
  | branch (decl : Branch)
  | expr (e : Expr)

/-- A position for a construct, which is filled or not. -/
inductive Position where
  | given (construct : Construct)
  | omittedReceiver
  | omittedInit

/-- The position for the receiver of a call. -/
def Position.receiver : Option Expr → Position
  | some receiver => .given (.expr receiver)
  | none => .omittedReceiver

/-- The position for an initializer. -/
def Position.init : Option Expr → Position
  | some init => .given (.expr init)
  | none => .omittedInit

/-- The names of an expression that are not in one of its parts, or the text of a literal. -/
def Form.ownNames : Form → List Name
  | .string value => [value]
  | .object name => [name]
  | .assign name _ => [name]
  | .dispatch _ method _ => [method]
  | .staticDispatch _ type method _ => [type, method]
  | .letIn name type _ _ => [name, type]
  | .new type => [type]
  | .int _ | .bool _ | .cond .. | .loop .. | .case .. | .block _ | .binary .. | .negate _
  | .complement _ | .isVoid _ | .noExpr => []

/-- The names that a feature is declared with. -/
def Feature.ownNames : Feature → List Name
  | .attr decl => [decl.name, decl.type]
  | .method decl => [decl.name, decl.returnType]

/-- The positions directly inside an expression. -/
def Form.positions : Form → List Position
  | .dispatch receiver _ args => .receiver receiver :: args.map (.given ∘ .expr)
  | .staticDispatch receiver _ _ args => .receiver receiver :: args.map (.given ∘ .expr)
  | .case scrutinee branches => .given (.expr scrutinee) :: branches.map (.given ∘ .branch)
  | .letIn _ _ init body => [.init init, .given (.expr body)]
  | form => form.children.map (.given ∘ .expr)

/-- The positions directly inside a feature. -/
def Feature.positions : Feature → List Position
  | .attr decl => [.init decl.init]
  | .method decl => decl.formals.map (.given ∘ .formal) ++ [.given (.expr decl.body)]

namespace Construct

/-- The line that a construct states. -/
def line : Construct → Option Nat
  | .classDecl decl => decl.line
  | .feature decl => decl.line
  | .formal decl => decl.line
  | .branch decl => decl.line
  | .expr e => e.line

/-- The names of a construct that are not in one of its parts: of a class also its file. -/
def ownNames : Construct → List Name
  | .classDecl decl => decl.name :: (decl.parent.toList ++ decl.file.toList)
  | .feature decl => decl.ownNames
  | .formal decl => [decl.name, decl.type]
  | .branch decl => [decl.name, decl.type]
  | .expr e => e.form.ownNames

/-- The positions directly inside a construct. -/
def positions : Construct → List Position
  | .classDecl decl => decl.features.map (.given ∘ .feature)
  | .feature decl => decl.positions
  | .formal _ => []
  | .branch decl => [.given (.expr decl.body)]
  | .expr e => e.form.positions

end Construct

namespace Position

/-- The line that is stated in a position. -/
def line : Position → Option Nat
  | .given construct => construct.line
  | .omittedReceiver | .omittedInit => none

/-- The positions directly inside a position. -/
def parts : Position → List Position
  | .given construct => construct.positions
  | .omittedReceiver | .omittedInit => []

end Position

/-- A position, and the lines that the constructs around it state, the innermost first. -/
structure Site where
  position : Position
  around : List (Option Nat)

namespace Site

/-- The site of a class. -/
def ofClass (decl : Class) : Site :=
  ⟨.given (.classDecl decl), []⟩

/-- The lines that are stated in a position and around it. -/
def lines (site : Site) : List (Option Nat) :=
  site.position.line :: site.around

/-- The line of whatever is at a site. -/
def line (site : Site) : Nat :=
  inheritedLine site.lines

/-- The sites directly inside a site. -/
def parts (site : Site) : List Site :=
  site.position.parts.map (⟨·, site.lines⟩)

/-- The construct that stands at a site of a source program which was read from the file `file`. -/
def construct (file : String) (site : Site) : SelfTyped.Construct :=
  match site.position with
  | .given (.classDecl decl) => .classDecl (Class.ofSource file decl)
  | .given (.feature decl) => .feature (Feature.ofSource (inheritedLine site.around) decl)
  | .given (.formal decl) => .formal (Formal.ofSource (inheritedLine site.around) decl)
  | .given (.branch decl) => .branch (Branch.ofSource (inheritedLine site.around) decl)
  | .given (.expr e) => .expr (Expr.ofSource (inheritedLine site.around) e)
  | .omittedReceiver => .expr ⟨inheritedLine site.around, .object Known.self⟩
  | .omittedInit => .expr ⟨inheritedLine site.around, .noExpr⟩

end Site

namespace Program

/-- The constructs that a program consists of. -/
def Has (p : Program) : Construct → Prop
  | .classDecl decl => decl ∈ p.classes
  | .feature decl => ∃ c ∈ p.classes, decl ∈ c.features
  | .formal decl => ∃ c ∈ p.classes, ∃ feature ∈ c.features, decl ∈ feature.formals
  | .branch decl => ∃ e, p.Contains e ∧ decl ∈ e.form.branches
  | .expr e => p.Contains e

/-- Some construct of a program has this text for a name, a file or a literal. -/
def Mentions (p : Program) (text : Name) : Prop :=
  ∃ construct, p.Has construct ∧ text ∈ construct.ownNames

/-- The site at an address. -/
def site? (p : Program) : List Nat → Option Site
  | [] => none
  | number :: address => (p.classes.map Site.ofClass)[number]?.bind (descend Site.parts address)

/-- A site that some address leads to. -/
def HasSite (p : Program) (site : Site) : Prop :=
  ∃ address, p.site? address = some site

/-- A construct that some address leads to. -/
def Reaches (p : Program) (construct : Construct) : Prop :=
  ∃ around, p.HasSite ⟨.given construct, around⟩

end Program

end Source

end SelfTyped
