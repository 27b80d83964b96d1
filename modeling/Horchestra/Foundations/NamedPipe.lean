import Mathlib.Tactic.Basic

/-!
# Named pipes

A named pipe between one reading and one writing side.  Opening one side waits until the other is
there; what is written is kept while anyone holds the pipe, and is lost when both sides are closed.
Who waits in an open already counts as present, so the two sides release each other.
-/

namespace Foundations.NamedPipe

/-- One side of a pipe: nobody holds it, its opener still waits, or it is open. -/
inductive Side where
  | closed
  | opening
  | opened
  deriving DecidableEq

structure Pipe (α : Type) where
  reader : Side := .closed
  writer : Side := .closed
  buffer : List α := []

/-- The side of someone who opens, facing the other one. -/
def Side.facing : Side → Side
  | .closed => .opening
  | .opening => .opened
  | .opened => .opened

/-- A side that waits is released when the other one comes. -/
def Side.woken : Side → Side
  | .closed => .closed
  | .opening => .opened
  | .opened => .opened

@[simp] theorem Side.facing_ne_closed (side : Side) : side.facing ≠ .closed := by
  cases side <;> simp [Side.facing]

@[simp] theorem Side.woken_eq_closed_iff (side : Side) : side.woken = .closed ↔ side = .closed := by
  cases side <;> simp [Side.woken]

namespace Pipe

variable {α : Type}

def openReader (p : Pipe α) : Pipe α :=
  { p with reader := p.writer.facing, writer := p.writer.woken }

def openWriter (p : Pipe α) : Pipe α :=
  { p with writer := p.reader.facing, reader := p.reader.woken }

def openBoth (p : Pipe α) : Pipe α := { p with reader := .opened, writer := p.writer.woken }

def closeReader (p : Pipe α) : Pipe α :=
  { p with reader := .closed, buffer := if p.writer = .closed then [] else p.buffer }

def closeWriter (p : Pipe α) : Pipe α :=
  { p with writer := .closed, buffer := if p.reader = .closed then [] else p.buffer }

/-- A write is refused when nobody reads. -/
def write (p : Pipe α) (a : α) : Option (Pipe α) :=
  if p.reader = .closed then none else some { p with buffer := p.buffer ++ [a] }

def take (p : Pipe α) : Pipe α := { p with buffer := p.buffer.tail }

end Pipe

end Foundations.NamedPipe
