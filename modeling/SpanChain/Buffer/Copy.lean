/-
**Reading, writing and copying bytes.**

Every operation here handles as many bytes as there are, in pieces that end where a span ends, and
moves its cursor past them.  A piece is read as a whole before it is written, so a piece may
overlap the place it is written to; what an earlier piece has written is seen by a later one.

Main definitions:

* `SpanChain.ByteCursor.readByte`, `SpanChain.ByteCursor.writeByte`;
* `SpanChain.ByteCursor.readUpTo` — up to so many bytes as a list;
* `SpanChain.ByteCursor.copyInto` — the same over the front of a given list;
* `SpanChain.Source`, `SpanChain.ByteCursor.fill` — writing bytes of a source into a chain;
* `SpanChain.ByteCursor.write` — writing a list of bytes;
* `SpanChain.ByteCursor.copyTo` — copying from one cursor to another.
-/

import SpanChain.Buffer.ByteCursor

set_option relaxedAutoImplicit false
set_option autoImplicit false

namespace SpanChain

variable {n m : Nat}

/-! ### Sources -/

/-- Where the bytes of a write come from. -/
inductive Source where
  /-- From a list that is no part of the memory. -/
  | bytes (row : List UInt8)
  /-- From the memory itself, as it is at the time of reading. -/
  | region (base : Address)
  deriving DecidableEq, Repr

/-- The `k` bytes of a source behind its first `i`. -/
def Source.piece (mem : Memory) (i k : Nat) : Source → List UInt8
  | .bytes row => (row.drop i).take k
  | .region base => mem.load (base + i) k

@[simp] theorem Source.piece_bytes (mem : Memory) (i k : Nat) (row : List UInt8) :
    (Source.bytes row).piece mem i k = (row.drop i).take k := rfl

@[simp] theorem Source.piece_region (mem : Memory) (i k : Nat) (base : Address) :
    (Source.region base).piece mem i k = mem.load (base + i) k := rfl

namespace ByteCursor

/-! ### Single bytes -/

/-- The byte under the cursor, which moves past it; none at the end. -/
def readByte (p : Pool Span n m) (mem : Memory) (c : ByteCursor n m) :
    Except Fault (Option UInt8 × ByteCursor n m) := do
  let rest ← c.rest p
  if rest.isEmpty then return (none, c)
  let (c', _) ← c.advance p 1
  return (some (mem.get rest.base), c')

/-- Writes one byte under the cursor, which moves past it, and tells the number of bytes written:
zero at the end. -/
def writeByte (p : Pool Span n m) (mem : Memory) (c : ByteCursor n m) (b : UInt8) :
    Except Fault (Nat × Memory × ByteCursor n m) := do
  let rest ← c.rest p
  if rest.isEmpty then return (0, mem, c)
  let (c', _) ← c.advance p 1
  return (1, mem.set rest.base b, c')

/-! ### Reading many bytes -/

/-- The next `k` bytes, or all up to the end if these are fewer. -/
def readUpTo (p : Pool Span n m) (mem : Memory) (c : ByteCursor n m) (k : Nat) :
    Except Fault (List UInt8 × ByteCursor n m) :=
  if k = 0 then .ok ([], c)
  else
    match c.rest p with
    | .error e => .error e
    | .ok rest =>
      if rest.len = 0 then .ok ([], c)
      else
        match c.advance p (min rest.len k) with
        | .error e => .error e
        | .ok (c', _) =>
          match c'.readUpTo p mem (k - min rest.len k) with
          | .error e => .error e
          | .ok (bytes, c'') => .ok (mem.load rest.base (min rest.len k) ++ bytes, c'')
termination_by k
decreasing_by omega

/-- Reads as many bytes as the list `dst` has, or all up to the end if these are fewer, over the
front of `dst`, and tells their number. -/
def copyInto (p : Pool Span n m) (mem : Memory) (c : ByteCursor n m) (dst : List UInt8) :
    Except Fault (Nat × List UInt8 × ByteCursor n m) := do
  let (bytes, c') ← c.readUpTo p mem dst.length
  return (bytes.length, bytes ++ dst.drop bytes.length, c')

/-! ### Writing many bytes -/

/-- Writes `k` bytes of a source, from its byte `i` on, at the cursor, or as many as there is room
for, and tells how many of them found no room. -/
def fillLeft (p : Pool Span n m) (src : Source) (mem : Memory) (c : ByteCursor n m) (i k : Nat) :
    Except Fault (Nat × Memory × ByteCursor n m) :=
  if k = 0 then .ok (0, mem, c)
  else
    match c.rest p with
    | .error e => .error e
    | .ok rest =>
      if rest.len = 0 then .ok (k, mem, c)
      else
        match c.advance p (min rest.len k) with
        | .error e => .error e
        | .ok (c', _) =>
          fillLeft p src (mem.store rest.base (src.piece mem i (min rest.len k))) c'
            (i + min rest.len k) (k - min rest.len k)
termination_by k
decreasing_by omega

/-- Writes the first `k` bytes of a source at the cursor, or as many as there is room for, and
tells their number. -/
def fill (p : Pool Span n m) (src : Source) (mem : Memory) (c : ByteCursor n m) (k : Nat) :
    Except Fault (Nat × Memory × ByteCursor n m) := do
  let (left, mem', c') ← fillLeft p src mem c 0 k
  return (k - left, mem', c')

/-- Writes a list of bytes at the cursor, or as many as there is room for, and tells their
number. -/
def write (p : Pool Span n m) (mem : Memory) (c : ByteCursor n m) (row : List UInt8) :
    Except Fault (Nat × Memory × ByteCursor n m) :=
  fill p (.bytes row) mem c row.length

/-! ### Copying from cursor to cursor -/

/-- Copies `k` bytes from one cursor to another, and tells how many of them could not be copied.
It stops where either side ends. -/
def copyLeft (p : Pool Span n m) (mem : Memory) (src dst : ByteCursor n m) (k : Nat) :
    Except Fault (Nat × Memory × ByteCursor n m × ByteCursor n m) :=
  if k = 0 then .ok (0, mem, src, dst)
  else
    match src.rest p with
    | .error e => .error e
    | .ok rest =>
      if rest.len = 0 then .ok (k, mem, src, dst)
      else
        match fill p (.region rest.base) mem dst (min rest.len k) with
        | .error e => .error e
        | .ok (copied, mem', dst') =>
          match src.advance p copied with
          | .error e => .error e
          | .ok (src', _) =>
            if copied < min rest.len k then .ok (k - copied, mem', src', dst')
            else copyLeft p mem' src' dst' (k - min rest.len k)
termination_by k
decreasing_by omega

/-- Copies up to `k` bytes from one cursor to another, moves both past them, and tells their
number. -/
def copyTo (p : Pool Span n m) (mem : Memory) (src dst : ByteCursor n m) (k : Nat) :
    Except Fault (Nat × Memory × ByteCursor n m × ByteCursor n m) := do
  let (left, mem', src', dst') ← copyLeft p mem src dst k
  return (k - left, mem', src', dst')

end ByteCursor

end SpanChain
