/-
HyperCors.Merge — `merge_headers` and `dedup_vary`.

The optimised writer of `dedup_vary` keeps a 128-byte stack buffer, the
length written so far, and a heap buffer once the output has outgrown the
stack. Its slice accesses panic when they leave the buffer, as in the
source; `MergeTheorems` shows that they never do.
-/
import HyperCors.HeaderBuf

namespace HyperCors

open Polling (Panic)

/-! ## The output buffer of `dedup_vary` -/

def dedupVaryStack : Nat := 128

/-- `slice[a..b].copy_from_slice(src)`. -/
def copyFromSlice (slice : Bytes) (a b : Nat) (src : Bytes) : Except Panic Bytes :=
  if a ≤ b ∧ b ≤ slice.length then
    if src.length = b - a then .ok (slice.take a ++ src ++ slice.drop b)
    else .error ⟨"copy_from_slice: source slice length does not match destination slice length"⟩
  else .error ⟨"slice index out of range"⟩

/-- `&slice[..len]`. -/
def slicePrefix (slice : Bytes) (len : Nat) : Except Panic Bytes :=
  if len ≤ slice.length then .ok (slice.take len) else .error ⟨"slice index out of range"⟩

structure VaryBuf where
  stack : Bytes
  len : Nat
  heap : Option Bytes

namespace VaryBuf

def new : VaryBuf := ⟨List.replicate dedupVaryStack 0, 0, none⟩

def needsSep (self : VaryBuf) : Bool :=
  match self.heap with
  | some v => !v.isEmpty
  | none => 0 < self.len

def sepLen (needsSep : Bool) : Nat := if needsSep then 2 else 0

/-- The stack buffer with the separator written behind the used part. -/
def writeSep (self : VaryBuf) (needsSep : Bool) : Except Panic Bytes :=
  if needsSep then copyFromSlice self.stack self.len (self.len + 2) [comma, space]
  else .ok self.stack

/-- The fast path: still in the stack buffer. -/
def writeStack (self : VaryBuf) (needsSep : Bool) (tok : Bytes) : Except Panic VaryBuf := do
  let total := sepLen needsSep + tok.length
  let stack ← self.writeSep needsSep
  let stack ← copyFromSlice stack (self.len + sepLen needsSep) (self.len + total) tok
  .ok { self with stack := stack, len := self.len + total }

/-- Spill to the heap, copying what is in the stack buffer. -/
def spill (self : VaryBuf) : Except Panic VaryBuf := do
  let v ← slicePrefix self.stack self.len
  .ok { self with heap := some v }

def writeHeap (self : VaryBuf) (needsSep : Bool) (tok : Bytes) : Except Panic VaryBuf :=
  match self.heap with
  | none => .error ⟨"set on spill"⟩
  | some v =>
    let v := if needsSep then v ++ [comma, space] else v
    .ok { self with heap := some (v ++ tok) }

/-- One pass of the loop body, for a token that is kept. -/
def write (self : VaryBuf) (tok : Bytes) : Except Panic VaryBuf := do
  let needsSep := self.needsSep
  if self.heap.isNone then
    if self.len + (sepLen needsSep + tok.length) ≤ dedupVaryStack then
      self.writeStack needsSep tok
    else
      let spilled ← self.spill
      spilled.writeHeap needsSep tok
  else self.writeHeap needsSep tok

/-- The bytes written so far. -/
def bytes (self : VaryBuf) : Except Panic Bytes :=
  match self.heap with
  | some v => .ok v
  | none => slicePrefix self.stack self.len

end VaryBuf

section Merge

variable [HttpCrate]

/-! ## `dedup_vary` and `merge_headers` -/

def alreadyListed (target : HeaderMap) (tok : Bytes) : Bool :=
  ((target.getAll header.vary).flatMap fun v => v.bytes.splitOn comma).any fun e =>
    eqIgnoreAsciiCase (trimAscii e) tok

def dedupVaryLoop (target : HeaderMap) : List Bytes → VaryBuf → Except Panic VaryBuf
  | [], buf => .ok buf
  | tok :: rest, buf => do
    let tok := trimAscii tok
    if tok.isEmpty || alreadyListed target tok then dedupVaryLoop target rest buf
    else
      let buf ← buf.write tok
      dedupVaryLoop target rest buf

/-- `value` without the tokens that `target`'s `Vary` covers, or `none`
when it covers them all. -/
def dedupVary (target : HeaderMap) (value : HeaderValue) : Except Panic (Option HeaderValue) :=
  if (target.get header.vary).isNone then .ok (some value)
  else do
    let buf ← dedupVaryLoop target (value.bytes.splitOn comma) .new
    let bytes ← buf.bytes
    if bytes.isEmpty then .ok none else .ok (HeaderValue.fromBytes bytes)

def mergeHeadersLoop : List Pair → HeaderMap → Except Panic HeaderMap
  | [], target => .ok target
  | (name, value) :: rest, target =>
    if name = header.vary then do
      match ← dedupVary target value with
      | some value => mergeHeadersLoop rest (target.append name value)
      | none => mergeHeadersLoop rest target
    else mergeHeadersLoop rest (target.insert name value)

/-- Appends any `Vary` value, overwrites the rest. -/
def mergeHeaders (target : HeaderMap) (headers : HeaderBuf) : Except Panic HeaderMap :=
  mergeHeadersLoop headers.iter target

end Merge

end HyperCors
