/-! Parsers. A parser reads a value from the front of a text and leaves the rest, or is stuck. Its
reply also tells how far it reached: the furthest point at which it tried a token, on the way it
took or on one that it gave up.

The combinators stand for those that programs take from a package, as far as the grammars here use
them. Left out are texts that arrive in parts, failures that rule out the other choices, and what an
error says besides its place. The furthest point is not kept by the package but by the error type of
the grammar, in a variable that every failing token writes to; here the reply holds it. A repetition
ends where its parser takes nothing, which the package counts as an error; no grammar here repeats
such a parser. -/
namespace XPath
set_option autoImplicit false

/-! ## Replies -/

structure Reply (α : Type) where
  /-- The value and the rest of the text, none if the parser is stuck. -/
  result : Option (α × List Char)
  /-- How many characters the parser took, or how many stand before the point where it is stuck. -/
  taken : Nat
  /-- How many characters stand before the furthest point at which a token was tried. -/
  reach : Nat
  deriving DecidableEq, Repr

def Parser (α : Type) : Type := List Char → Reply α

namespace Parser

section
variable {α β : Type}

/-! ## Sequence and choice -/

protected def pure (value : α) : Parser α := fun s => ⟨some (value, s), 0, 0⟩

protected def bind (p : Parser α) (next : α → Parser β) : Parser β := fun s =>
  let first := p s
  match first.result with
  | some (value, rest) =>
    let second := next value rest
    ⟨second.result, first.taken + second.taken, max first.reach (first.taken + second.reach)⟩
  | none => ⟨none, first.taken, first.reach⟩

instance : Monad Parser where
  pure := Parser.pure
  bind := Parser.bind

/-- Tries a second parser where the first is stuck. If both are, the further point counts. -/
protected def orElse (p q : Parser α) : Parser α := fun s =>
  let first := p s
  match first.result with
  | some _ => first
  | none =>
    let second := q s
    let reach := max first.reach second.reach
    match second.result with
    | some found => ⟨some found, second.taken, reach⟩
    | none => ⟨none, max first.taken second.taken, reach⟩

instance : OrElse (Parser α) where
  orElse p q := Parser.orElse p (q ())

def fail : Parser α := fun _ => ⟨none, 0, 0⟩

/-- The first of several parsers that is not stuck. -/
def firstOf (choices : List (Parser α)) : Parser α := choices.foldr (fun p q => p <|> q) fail

def optional (p : Parser α) : Parser (Option α) := (some <$> p) <|> pure none

/-- Parses without taking anything. -/
def peek (p : Parser α) : Parser α := fun s =>
  let reply := p s
  match reply.result with
  | some (value, _) => ⟨some (value, s), 0, reply.reach⟩
  | none => reply

/-- The value that a parser finds in a text if it takes all of it. -/
def whole? (p : Parser α) (s : List Char) : Option α :=
  match (p s).result with
  | some (value, []) => some value
  | _ => none

/-! ## Repetition -/

/-- Repeats a parser up to `count` times, until it is stuck or takes nothing. -/
def manyWithin (p : Parser α) : Nat → Parser (List α)
  | 0 => pure []
  | count + 1 => fun s =>
    let first := p s
    match first.result with
    | some (value, rest) =>
      if first.taken = 0 then ⟨some ([], s), 0, first.reach⟩
      else
        let more := manyWithin p count rest
        ⟨more.result.map fun (values, final) => (value :: values, final),
          first.taken + more.taken, max first.reach (first.taken + more.reach)⟩
    | none => ⟨some ([], s), 0, first.reach⟩

/-- Repeats a parser as often as it takes something. -/
def many (p : Parser α) : Parser (List α) := fun s => manyWithin p (s.length + 1) s

/-- Any number of values with a separator between neighbours. -/
def separated (separator : Parser β) (p : Parser α) : Parser (List α) := do
  match ← optional p with
  | none => return []
  | some first => return first :: (← many (do let _ ← separator; p))

end

/-! ## Tokens -/

/-- One character of a class. -/
def satisfy (cls : Char → Bool) : Parser Char := fun s =>
  match s with
  | c :: rest => if cls c then ⟨some (c, rest), 1, 0⟩ else ⟨none, 0, 0⟩
  | [] => ⟨none, 0, 0⟩

def char (c : Char) : Parser Char := satisfy (· == c)

/-- The longest run of characters of a class, possibly empty. -/
def takeWhile (cls : Char → Bool) : Parser (List Char) := fun s =>
  let run := s.takeWhile cls
  ⟨some (run, s.dropWhile cls), run.length, 0⟩

/-- Exactly this text. -/
def word (text : String) : Parser Unit := fun s =>
  match text.toList.isPrefixOf? s with
  | some rest => ⟨some ((), rest), text.length, 0⟩
  | none => ⟨none, 0, 0⟩

/-- Exactly this text, and no character of the class after it. Where a longer word begins with the
text, that is the end of an attempt but no point at which a token was tried. -/
def wordNotBefore (text : String) (cls : Char → Bool) : Parser Unit := fun s =>
  match text.toList.isPrefixOf? s with
  | some rest =>
    if rest.head?.any cls then ⟨none, text.length, 0⟩
    else ⟨some ((), rest), text.length, text.length⟩
  | none => ⟨none, 0, 0⟩

end Parser
end XPath
