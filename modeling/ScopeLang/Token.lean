import ScopeLang.Span

/-!
# Tokens

A script is a sequence of words between blanks.  Five words are reserved; every
other word is a name or a literal, which only its place in a statement tells
apart.
-/

namespace ScopeLang

/-- A word of a script. -/
inductive Token where
  | print
  | scope
  | openBrace
  | closeBrace
  | equals
  | word (text : String)
deriving DecidableEq, Repr

/-- A token together with the part of the source that it was read from. -/
structure Lexeme where
  token : Token
  span : Span
deriving DecidableEq, Repr

/-- The words with a meaning of their own. -/
def reservedWords : List String :=
  ["print", "scope", "\x7b", "\x7d", "="]

namespace Token

/-- The token that a word stands for.  Reserved words are matched exactly. -/
def ofText (text : String) : Token :=
  if text = "print" then .print
  else if text = "scope" then .scope
  else if text = "\x7b" then .openBrace
  else if text = "\x7d" then .closeBrace
  else if text = "=" then .equals
  else .word text

/-- The word that a token was read from. -/
def text : Token → String
  | .print => "print"
  | .scope => "scope"
  | .openBrace => "\x7b"
  | .closeBrace => "\x7d"
  | .equals => "="
  | .word text => text

/-- Classifying a word keeps its text. -/
@[simp] theorem text_ofText (s : String) : (ofText s).text = s := by
  grind [ofText, text]

/-- Two words give the same token only if they are the same word. -/
theorem ofText_injective {s t : String} (h : ofText s = ofText t) : s = t := by
  rw [← text_ofText s, h, text_ofText]

/-- A word that is not reserved is a name or a literal. -/
theorem ofText_of_not_mem {text : String} (h : text ∉ reservedWords) :
    ofText text = .word text := by
  simp only [reservedWords, List.mem_cons, List.not_mem_nil, or_false, not_or] at h
  obtain ⟨notPrint, notScope, notOpen, notClose, notEquals⟩ := h
  simp [ofText, notPrint, notScope, notOpen, notClose, notEquals]

end Token

/-- The word that a lexeme was read from. -/
def Lexeme.text (lexeme : Lexeme) : String :=
  lexeme.token.text

end ScopeLang
