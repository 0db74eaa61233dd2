import ScopeLang.CommandLine.Options
import ScopeLang.Directory

/-!
# The world around a run

What a run can read: the bytes of standard input, which are used up by reading
them, and files by their paths, which stay as they are.  Reading can fail.
-/

namespace ScopeLang

/-- The inputs that a run finds. -/
structure World where
  /-- What is left of standard input. -/
  stdin : Except ReadError ByteArray
  /-- The contents of the file at a path. -/
  readFile : String → Except ReadError ByteArray

namespace World

/-- A world with the files of a directory. -/
def ofDirectory (stdin : ByteArray) (directory : Directory) : World where
  stdin := .ok stdin
  readFile := directory.read

/-- The text of some bytes. -/
def decode (bytes : ByteArray) : Except ReadError String :=
  match String.fromUTF8? bytes with
  | some text => .ok text
  | none => .error .notText

/-- Read the script of an origin.  Standard input is empty afterwards, also where
it held no text; where it cannot be read, it stays so. -/
def fetch (world : World) : Origin → Except ReadError String × World
  | .inline script => (.ok script, world)
  | .standardInput =>
      (world.stdin >>= decode, { world with stdin := world.stdin.map fun _ => .empty })
  | .file path => (world.readFile path >>= decode, world)
  | .nowhere => (.ok "", world)

/-- The bytes of a text decode to that text. -/
@[simp] theorem decode_toUTF8 (text : String) : decode text.toUTF8 = .ok text := by
  unfold decode String.fromUTF8?
  rw [dif_pos (show text.toUTF8.IsValidUTF8 from text.isValidUTF8)]
  rfl

end World

end ScopeLang
