import HostTelemetry.Text.Basic

/-!
# Patterns

Regular expressions over code points, matched by derivatives: the derivative of a pattern by a
code point matches what may follow it.
-/

set_option autoImplicit false

namespace HostTelemetry.Yaml

inductive Pattern
  | never
  | empty
  | one (p : CodePoint → Bool)
  | seq (a b : Pattern)
  | alt (a b : Pattern)
  | star (a : Pattern)

namespace Pattern

def nullable : Pattern → Bool
  | never => false
  | empty => true
  | one _ => false
  | seq a b => a.nullable && b.nullable
  | alt a b => a.nullable || b.nullable
  | star _ => true

def andThen : Pattern → Pattern → Pattern
  | never, _ => never
  | empty, b => b
  | a, b => seq a b

def orElse : Pattern → Pattern → Pattern
  | never, b => b
  | a, never => a
  | a, b => alt a b

def derivative (c : CodePoint) : Pattern → Pattern
  | never => never
  | empty => never
  | one p => if p c then empty else never
  | seq a b =>
    let first := (a.derivative c).andThen b
    if a.nullable then first.orElse (b.derivative c) else first
  | alt a b => (a.derivative c).orElse (b.derivative c)
  | star a => (a.derivative c).andThen (star a)

def isMatch (p : Pattern) (t : Text) : Bool := (t.foldl (fun q c => q.derivative c) p).nullable

def all (ps : List Pattern) : Pattern := ps.foldr seq empty

def any (ps : List Pattern) : Pattern := ps.foldr alt never

def opt (p : Pattern) : Pattern := alt p empty

def plus (p : Pattern) : Pattern := seq p (star p)

def word (s : String) : Pattern := all ((lit s).map fun c => one (· == c))

def words (ss : List String) : Pattern := any (ss.map word)

def oneOf (s : String) : Pattern := one fun c => (lit s).contains c

def digit : Pattern := one CodePoint.isDigit

end Pattern

end HostTelemetry.Yaml
