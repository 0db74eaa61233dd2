import ScopeLang.Span
import ScopeLang.Text.Decimal

/-!
# Faults of a script

A `Fault` says why a script cannot go on and, where one token is to blame, the
span of that token.  `message` is the bare wording; `render` adds the place
and marks it below the source line.
-/

namespace ScopeLang

/-- The ways in which a script can fail. -/
inductive Fault.Kind where
  /-- The source ends inside a statement. -/
  | endOfInput
  /-- The word after `scope` is not an opening brace. -/
  | missingBrace
  /-- The second word of an assignment is not an equals sign. -/
  | missingEquals
  /-- The source ends while a scope is open. -/
  | unclosedScope
  /-- A closing brace has no scope to close. -/
  | strayBrace
deriving DecidableEq, Repr

/-- The wording of a fault. -/
def Fault.Kind.message : Fault.Kind → String
  | .endOfInput => "unexpected end of input while parsing a statement"
  | .missingBrace => "expected opening brace after scope"
  | .missingEquals => "unrecognized operand, expected ="
  | .unclosedScope => "unterminated scope, closing brace expected"
  | .strayBrace => "unmatched closing brace"

/-- A failure of a script, with the token to blame where there is one. -/
structure Fault where
  kind : Fault.Kind
  span : Option Span
deriving DecidableEq, Repr

namespace Fault

/-- The source ends inside a statement. -/
def endOfInput : Fault where
  kind := .endOfInput
  span := none

/-- The source ends while a scope is open. -/
def unclosedScope : Fault where
  kind := .unclosedScope
  span := none

/-- A fault of the token with the given span. -/
def atSpan (kind : Kind) (span : Span) : Fault where
  kind := kind
  span := some span

/-- The wording of a fault, without its place. -/
def message (fault : Fault) : String :=
  fault.kind.message

/-- A message with its place: the line and column, the line itself, and `width`
carets below it. -/
def mark (message : String) (place : Excerpt) (width : Nat) : String :=
  message ++ " (line " ++ Text.decimal place.line ++ ", column " ++ Text.decimal place.column
    ++ ")\n" ++ place.text ++ "\n"
    ++ String.ofList (List.replicate (place.column - 1) ' ')
    ++ String.ofList (List.replicate width '^')

/-- A fault as shown to a person who has the source.  Without a span, or with
one that lies beyond the source, it is the bare message. -/
def render (fault : Fault) (source : String) : Except Misaligned String :=
  match fault.span with
  | none => .ok fault.message
  | some span =>
      match span.excerpt source with
      | .error misaligned => .error misaligned
      | .ok none => .ok fault.message
      | .ok (some place) => .ok (mark fault.message place (span.width source))

end Fault

end ScopeLang
