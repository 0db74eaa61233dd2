/-!
# Text without control sequences

A terminal reads some characters as commands.  `strip` keeps what it would
show: printable characters and blanks, but no other control character and no
part of a control sequence.

A sequence begins with an escape character, and what follows tells its kind: a
plain escape ends at its first letter, a control sequence (`[`) at a letter, a
command string (`]`) at a bell, the other strings (`P`, `X`, `^`, `_`) at a
string terminator.  A new escape, a cancel and a substitute end all of them.
-/

namespace ScopeLang.Text

/-- How far a terminal is inside a sequence. -/
inductive Phase where
  /-- Outside of any sequence. -/
  | ground
  /-- After an escape character. -/
  | escape
  /-- In an escape sequence with intermediate characters. -/
  | escapeMore
  /-- In a control sequence. -/
  | control
  /-- At the start of a device control string. -/
  | device
  /-- Among the parameters of a device control string. -/
  | deviceParam
  /-- Among the intermediate characters of a device control string. -/
  | deviceMore
  /-- In an operating system command. -/
  | command
  /-- In the body of any other string. -/
  | body
deriving DecidableEq, Repr

/-- Whether a blank inside a sequence gives the sequence up. -/
inductive Stripping where
  /-- The sequence is over, as in a text that is stripped as a whole. -/
  | whole
  /-- The sequence waits until the shown text is over, as in a stream. -/
  | stream
deriving DecidableEq, Repr

/-- Whether a character is a blank that a terminal acts on and a text keeps. -/
def isLayout (c : Char) : Bool :=
  c = '\t' || c = '\n' || c = '\x0c' || c = '\r'

/-- Whether a character lies between two others. -/
def isBetween (lo hi c : Char) : Bool :=
  lo ≤ c && c ≤ hi

/-- Whether a character lies beyond ASCII. -/
def isWide (c : Char) : Bool :=
  128 ≤ c.toNat

/-- Whether the encoding of a character holds the byte of a string terminator. -/
def hasTerminator (c : Char) : Bool :=
  (String.utf8EncodeChar c).contains 0x9C

namespace Phase

/-- Whether a character is shown. -/
def shows (phase : Phase) (c : Char) : Bool :=
  match phase with
  | .ground => isBetween ' ' '~' c || isLayout c || isWide c
  | .escape | .escapeMore | .control => isLayout c
  | .device | .deviceParam | .deviceMore | .command | .body => false

/-- The phase after a character. -/
def next (phase : Phase) (c : Char) : Phase :=
  if c = '\x18' || c = '\x1a' then .ground
  else if c = '\x1b' then .escape
  else
    match phase with
    | .ground => .ground
    | .escape =>
        if c = '[' then .control
        else if c = ']' then .command
        else if c = 'P' then .device
        else if c = 'X' || c = '^' || c = '_' then .body
        else if isBetween ' ' '/' c then .escapeMore
        else if isBetween '0' '~' c then .ground
        else .escape
    | .escapeMore => if isBetween '0' '~' c then .ground else .escapeMore
    | .control => if isBetween '@' '~' c then .ground else .control
    | .device =>
        if isBetween ' ' '/' c then .deviceMore
        else if isBetween '0' '?' c then .deviceParam
        else if isBetween '@' '~' c then .body
        else .device
    | .deviceParam =>
        if isBetween ' ' '/' c then .deviceMore
        else if isBetween '<' '~' c then .body
        else .deviceParam
    | .deviceMore => if isBetween '0' '~' c then .body else .deviceMore
    | .command => if c = '\x07' then .ground else .command
    | .body => if hasTerminator c then .ground else .body

/-- The phase to go on with after a character that was shown. -/
def shown (phase : Phase) (c : Char) : Stripping → Phase
  | .whole => .ground
  | .stream => if isWide c then .ground else phase

end Phase

/-- The characters of a text that are shown, where `showing` says whether the
last one was: a run of shown characters goes on as outside of any sequence. -/
def shownFrom (stripping : Stripping) (showing : Bool) (phase : Phase) :
    List Char → List Char
  | [] => []
  | c :: cs =>
      if (if showing then .ground else phase).shows c then
        c :: shownFrom stripping true (phase.shown c stripping) cs
      else shownFrom stripping false (phase.next c) cs

/-- A text without its control characters and sequences. -/
def strip (stripping : Stripping) (text : String) : String :=
  String.ofList (shownFrom stripping false .ground text.toList)

end ScopeLang.Text
