import ScopeLang.Text.Bytes
import ScopeLang.Text.Lines

/-!
# Spans of a source

A `Span` marks a part of a source by byte offsets.  For a person, the place is
shown as an `Excerpt`: the line and column of the span's start and the line
that holds it.  A span may come from elsewhere, so its start can lie beyond
the source, which has no excerpt, or inside a character, which is an error.
-/

namespace ScopeLang

/-- A part of a source: the bytes from `start` up to and not including `stop`. -/
structure Span where
  start : Nat
  stop : Nat
deriving DecidableEq, Repr

/-- The place where a span starts, as shown to a person: line and column count
from 1, the column in characters, and `text` is the line without its end. -/
structure Excerpt where
  line : Nat
  column : Nat
  text : String
deriving DecidableEq, Repr

/-- Why a span has no place in a source: its start cuts a character apart. -/
inductive Misaligned where
  | insideCharacter
deriving DecidableEq, Repr

namespace Span

/-- Find the line that holds byte `start`, counted from the first byte of
`lines`, where the first of the lines has the number `number`. -/
def locate (start : Nat) (number : Nat) (lines : List (List Char)) :
    Except Misaligned (Option Excerpt) :=
  match lines with
  | [] => .ok none
  | line :: rest =>
      if start < Text.byteSize line then
        match Text.splitAtByte start line with
        | some (before, _) =>
            .ok (some
              { line := number
                column := before.length + 1
                text := String.ofList (Text.trimLineEnd line) })
        | none => .error .insideCharacter
      else locate (start - Text.byteSize line) (number + 1) rest

/-- The excerpt of a source at a span's start: none if the span starts at or
beyond the end. -/
def excerpt (source : String) (span : Span) : Except Misaligned (Option Excerpt) :=
  locate span.start 1 (Text.linesWithEnds source.toList)

/-- The number of characters to mark below an excerpt: those of the span, and
one where the span is empty or does not cut the source at characters. -/
def width (source : String) (span : Span) : Nat :=
  match Text.slice source.toList span.start span.stop with
  | some part => max 1 part.length
  | none => 1

/-- Lines and columns count from 1. -/
theorem locate_pos {start number : Nat} {lines : List (List Char)} {e : Excerpt}
    (h : locate start number lines = .ok (some e)) : number ≤ e.line ∧ 1 ≤ e.column := by
  fun_induction locate start number lines with
  | case1 => simp at h
  | case2 start number line rest _ before after hcut =>
      simp only [Except.ok.injEq, Option.some.injEq] at h
      subst h
      exact ⟨Nat.le_refl _, Nat.le_add_left 1 _⟩
  | case3 => simp at h
  | case4 start number line rest _ ih =>
      have := ih h
      omega

end Span

end ScopeLang
