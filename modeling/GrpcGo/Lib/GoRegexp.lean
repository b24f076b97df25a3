import GrpcGo.Lib.GoStrings

/-!
# Go's `regexp`, as an engine parameter

The modelled code compiles RE2 expressions with `regexp.Compile` and searches them with
`FindString` after switching the expression to leftmost-longest matching.  The automata of Go's
`regexp` package are not modelled: a development takes an `Engine` as a parameter, and a theorem
that needs a documented property of the package states it as a hypothesis on the engine.
-/

namespace GoStd
namespace Regexp

/-- The operations of Go's `regexp` package that the modelled code calls. -/
structure Engine where
  /-- Compiled expressions. -/
  Expr : Type
  /-- `regexp.Compile(expr)`, with the text of its syntax error. -/
  compile : String → Except String Expr
  /-- `re.FindString(s)` after `re.Longest()`: the leftmost-longest match of `re` in `s`, and
  `""` when there is none. -/
  findString : Expr → String → String

/-- The documented behaviour of `FindString` that the proofs use: what it returns is a
substring of its input. -/
def Engine.FindsSubstrings (E : Engine) : Prop :=
  ∀ (re : E.Expr) (s : String), (E.findString re s).toList <:+: s.toList

/-- Go's `regexp` on expressions without metacharacters, each of which matches exactly its own
text: `FindString` returns the expression when it occurs in the input, and `""` otherwise. -/
def Engine.literal : Engine where
  Expr := String
  compile r := .ok r
  findString re s := if re.toList <:+: s.toList then re else ""

end Regexp
end GoStd
