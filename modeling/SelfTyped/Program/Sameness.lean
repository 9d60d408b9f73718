/-
SelfTyped.Program.Sameness — programs that differ in lines only.

Lines say where something was written, not what was written.  Two
programs are the same when they agree in everything but lines.
-/
import SelfTyped.Program.Basic

namespace SelfTyped

mutual

/-- Whether two expressions agree up to lines. -/
def Expr.same : Expr → Expr → Bool
  | ⟨_, form⟩, ⟨_, other⟩ => form.same other

/-- Whether two expressions, lines of their roots apart, agree up to lines. -/
def Form.same : Form → Form → Bool
  | .assign n v, .assign n' v' => n == n' && v.same v'
  | .dispatch r m as, .dispatch r' m' as' => r.same r' && m == m' && sameItems as as'
  | .staticDispatch r t m as, .staticDispatch r' t' m' as' =>
    r.same r' && t == t' && m == m' && sameItems as as'
  | .cond p a b, .cond p' a' b' => p.same p' && a.same a' && b.same b'
  | .loop c b, .loop c' b' => c.same c' && b.same b'
  | .case s bs, .case s' bs' => s.same s' && sameBranches bs bs'
  | .block es, .block es' => sameItems es es'
  | .letIn n t i b, .letIn n' t' i' b' => n == n' && t == t' && i.same i' && b.same b'
  | .binary op l r, .binary op' l' r' => op == op' && l.same l' && r.same r'
  | .negate e, .negate e' => e.same e'
  | .complement e, .complement e' => e.same e'
  | .int v, .int v' => v == v'
  | .bool v, .bool v' => v == v'
  | .string v, .string v' => v == v'
  | .new t, .new t' => t == t'
  | .isVoid e, .isVoid e' => e.same e'
  | .noExpr, .noExpr => true
  | .object n, .object n' => n == n'
  | _, _ => false

/-- Whether two lists of expressions agree up to lines. -/
def sameItems : List Expr → List Expr → Bool
  | [], [] => true
  | e :: es, e' :: es' => e.same e' && sameItems es es'
  | _, _ => false

/-- Whether two lists of branches agree up to lines. -/
def sameBranches : List Branch → List Branch → Bool
  | [], [] => true
  | ⟨_, n, t, e⟩ :: bs, ⟨_, n', t', e'⟩ :: bs' =>
    n == n' && t == t' && e.same e' && sameBranches bs bs'
  | _, _ => false

end

/-- Whether two lists agree item by item. -/
def sameLists {α : Type} (same : α → α → Bool) : List α → List α → Bool
  | [], [] => true
  | a :: as, b :: bs => same a b && sameLists same as bs
  | _, _ => false

/-- Whether two formal parameters agree up to lines. -/
def Formal.same (a b : Formal) : Bool :=
  a.name == b.name && a.type == b.type

/-- Whether two features agree up to lines. -/
def Feature.same : Feature → Feature → Bool
  | .attr a, .attr b => a.name == b.name && a.type == b.type && a.init.same b.init
  | .method a, .method b =>
    a.name == b.name && sameLists Formal.same a.formals b.formals &&
      a.returnType == b.returnType && a.body.same b.body
  | _, _ => false

/-- Whether two classes agree up to lines. -/
def Class.same (a b : Class) : Bool :=
  a.name == b.name && a.parent == b.parent && a.file == b.file &&
    sameLists Feature.same a.features b.features

/-- Whether two programs agree up to lines. -/
def Program.same (a b : Program) : Bool :=
  sameLists Class.same a.classes b.classes

end SelfTyped
