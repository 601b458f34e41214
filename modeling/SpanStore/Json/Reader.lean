import SpanStore.Json.Token

/-!
Reading JSON one byte at a time. A reader holds the lists and objects that are open, each with
its finished parts, so what was read before a flaw stays known. A second value or any token after
the first value is a flaw; blanks are not, nor is a string that the bytes leave open there.
-/
namespace SpanStore.Json

/-- Why reading stopped: the bytes are no JSON, or a string of them has no text. -/
inductive Flaw where
  | malformed
  | undecodable

/-- An open list or object with its finished parts, last first. An object also has the name of
the member that comes next or is being read. -/
inductive Open where
  | list (items : List Value)
  | object (members : List (String × Value)) (name : String)

inductive Expect where
  | value
  | itemOrClose
  | nameOrClose
  | name
  | colon
  | separator
  | nothing
  deriving DecidableEq

/-- A value under way: the open lists and objects, innermost first, and the value once it is
complete. -/
structure Progress where
  frames : List Open
  expect : Expect
  root : Option Value

namespace Progress

def start : Progress := ⟨[], .value, none⟩

def deliver (v : Value) : List Open → Progress
  | [] => ⟨[], .nothing, some v⟩
  | .list items :: frames => ⟨.list (v :: items) :: frames, .separator, none⟩
  | .object members name :: frames =>
      ⟨.object ((name, v) :: members) name :: frames, .separator, none⟩

def closeList : List Open → Except Flaw Progress
  | .list items :: frames => .ok (deliver (.list items.reverse) frames)
  | _ => .error .malformed

def closeObject : List Open → Except Flaw Progress
  | .object members _ :: frames => .ok (deliver (.object members.reverse) frames)
  | _ => .error .malformed

def acceptValue (p : Progress) : Token → Except Flaw Progress
  | .scalar v => .ok (deliver v p.frames)
  | .text (some s) => .ok (deliver (.text s) p.frames)
  | .text none => .error .undecodable
  | .openList => .ok ⟨.list [] :: p.frames, .itemOrClose, none⟩
  | .openObject => .ok ⟨.object [] "" :: p.frames, .nameOrClose, none⟩
  | _ => .error .malformed

def acceptName (p : Progress) : Token → Except Flaw Progress
  | .text (some s) =>
      match p.frames with
      | .object members _ :: frames => .ok ⟨.object members s :: frames, .colon, none⟩
      | _ => .error .malformed
  | .text none => .error .undecodable
  | _ => .error .malformed

def accept (p : Progress) (t : Token) : Except Flaw Progress :=
  match p.expect, t with
  | .value, t => p.acceptValue t
  | .itemOrClose, .closeList => closeList p.frames
  | .itemOrClose, t => p.acceptValue t
  | .nameOrClose, .closeObject => closeObject p.frames
  | .nameOrClose, t => p.acceptName t
  | .name, t => p.acceptName t
  | .colon, .colon => .ok { p with expect := .value }
  | .separator, .comma =>
      match p.frames with
      | .list _ :: _ => .ok { p with expect := .value }
      | .object _ _ :: _ => .ok { p with expect := .name }
      | [] => .error .malformed
  | .separator, .closeList => closeList p.frames
  | .separator, .closeObject => closeObject p.frames
  | _, _ => .error .malformed

end Progress

/-- A value and a token under way, or the flaw that stopped the reading. -/
structure Reader where
  progress : Progress
  lexeme : Lexeme
  flaw : Option Flaw

namespace Reader

def start : Reader := ⟨.start, .none, none⟩

def fail (r : Reader) (f : Flaw) : Reader := { r with flaw := some f }

def accept (r : Reader) (t : Token) : Reader :=
  match r.progress.accept t with
  | .ok p => ⟨p, .none, none⟩
  | .error f => r.fail f

def begin (r : Reader) (b : UInt8) : Reader :=
  match r.flaw with
  | some _ => r
  | none =>
      match Opening.ofByte b with
      | .blank => r
      | .whole t => r.accept t
      | .partly l => { r with lexeme := l }
      | .malformed => r.fail .malformed

def feed (r : Reader) (b : UInt8) : Reader :=
  match r.flaw with
  | some _ => r
  | none =>
      match r.lexeme with
      | .none => r.begin b
      | .text state pieces =>
          match state.step pieces b with
          | .more state pieces => { r with lexeme := .text state pieces }
          | .closed => r.accept (.text (Piece.decode? pieces.reverse))
          | .malformed => r.fail .malformed
      | .number n =>
          match n.next? b with
          | some n => { r with lexeme := .number n }
          | none =>
              match n.value? with
              | some v => (r.accept (.scalar v)).begin b
              | none => r.fail .malformed
      | .word [] v => (r.accept (.scalar v)).begin b
      | .word (x :: xs) v =>
          if b = x then if xs.isEmpty then r.accept (.scalar v) else { r with lexeme := .word xs v }
          else r.fail .malformed

/-- Read bytes to their end, where a blank ends the last token. -/
def ofBytes (bs : List UInt8) : Reader := (bs.foldl feed start).feed 0x20

/-- What stopped the reading, if it did not come to a complete value and the end. -/
def flaw? (r : Reader) : Option Flaw :=
  match r.flaw with
  | some f => some f
  | none => if r.progress.root.isSome then none else some .malformed

end Reader

def parse? (bs : List UInt8) : Option Value :=
  let r := Reader.ofBytes bs
  match r.flaw? with
  | none => r.progress.root
  | some _ => none

end SpanStore.Json
