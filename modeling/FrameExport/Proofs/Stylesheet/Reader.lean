import FrameExport.Proofs.Text.Reading
import FrameExport.Stylesheet.Declaration
import Mathlib.Data.List.DropRight

/-!
# Style sheets as browsers read them

`SheetReader.read` reads a text as the rules of a style sheet.  It goes from character to character
and never refuses one.  The prelude of a rule runs to the first curly bracket; in the block
declarations are divided by semicolons, and the block ends where its bracket is closed.  Brackets
inside these pair up first, and none of this counts in a string, a comment or an address, or behind
a backslash.  A string ends at the line break if its mark does not come before.
-/

namespace FrameExport.SheetReader

open Text (isSpace run)

/-! ### Characters of a token -/

/-- What a character stands in: nothing, where `name` is the name that ends here, a string with its
mark, or an address without marks. -/
inductive Within where
  | plain (name : List Char)
  | quoted (mark : Char)
  | address
deriving DecidableEq, Repr

/-- Where the reader is in a token. -/
inductive Place where
  | within (w : Within)
  /-- Behind a slash, which may open a comment. -/
  | slash
  /-- In a comment; `star` tells that a star came last. -/
  | comment (star : Bool)
  /-- Behind the bracket that opens an address, and blanks. -/
  | addressStart
  /-- Behind a backslash. -/
  | escape (w : Within)
  /-- In the number of an escaped character. -/
  | hex (w : Within) (digits value : Nat)
  /-- Behind a carriage return that belongs to an escape; a line feed behind it does so too. -/
  | afterReturn (w : Within)
deriving DecidableEq, Repr

/-- The ends of a line. -/
def isLineBreak (c : Char) : Bool := c = '\n' || c = '\r' || c = '\x0c'

/-- A text on one line. -/
def Unbroken (cs : List Char) : Prop := ∀ c ∈ cs, isLineBreak c = false

instance (cs : List Char) : Decidable (Unbroken cs) := List.decidableBAll ..

/-- The characters of names, and the two marks that begin names which are no functions. -/
def isNameChar (c : Char) : Bool :=
  c.isAlphanum || c = '_' || c = '-' || c = '#' || c = '@' || 0x80 ≤ c.toNat

/-- The value of a hexadecimal digit. -/
def hexValue? (c : Char) : Option Nat :=
  if c.isDigit then some (c.toNat - '0'.toNat)
  else if 'a' ≤ c.toLower && c.toLower ≤ 'f' then some (c.toLower.toNat - 'a'.toNat + 10)
  else none

namespace Within

/-- Behind an escaped character. -/
def put (c : Char) : Within → Within
  | plain name => plain (name ++ [c])
  | w => w

/-- Behind a backslash at the end of a line. -/
def broken : Within → Within
  | plain _ => plain []
  | w => w

/-- What a character does where it stands; a mark that counts is given with it. -/
def lex : Within → Char → Place × Option Char
  | plain name, c =>
    if c = '/' then (.slash, none)
    else if c = '"' ∨ c = '\'' then (.within (quoted c), none)
    else if c = '\\' then (.escape (plain name), none)
    else if c = '(' ∧ name.map Char.toLower = "url".toList then (.addressStart, none)
    else if isNameChar c then (.within (plain (name ++ [c])), none)
    else (.within (plain []), some c)
  | quoted mark, c =>
    if c = mark ∨ isLineBreak c then (.within (plain []), none)
    else if c = '\\' then (.escape (quoted mark), none)
    else (.within (quoted mark), none)
  | address, c =>
    if c = ')' then (.within (plain []), none)
    else if c = '\\' then (.escape address, none)
    else (.within address, none)

end Within

/-- What a character does in a token; a mark that counts is given with it. -/
def Place.lex : Place → Char → Place × Option Char
  | within w, c => w.lex c
  | slash, c => if c = '*' then (.comment false, none) else (Within.plain []).lex c
  | comment star, c =>
    if c = '/' ∧ star then (.within (.plain []), none) else (.comment (c = '*'), none)
  | addressStart, c =>
    if isSpace c then (.addressStart, none)
    -- an address between marks is a string in brackets
    else if c = '"' ∨ c = '\'' then (.within (.quoted c), some '(')
    else Within.address.lex c
  | escape w, c =>
    match hexValue? c with
    | some value => (.hex w 1 value, none)
    | none =>
      if c = '\r' then (.afterReturn w.broken, none)
      else if isLineBreak c then (.within w.broken, none)
      else (.within (w.put c), none)
  | hex w digits value, c =>
    match hexValue? c, decide (digits < 6) with
    | some digit, true => (.hex w (digits + 1) (16 * value + digit), none)
    | _, _ =>
      if c = '\r' then (.afterReturn (w.put (Char.ofNat value)), none)
      else if isSpace c then (.within (w.put (Char.ofNat value)), none)
      else (w.put (Char.ofNat value)).lex c
  | afterReturn w, c => if c = '\n' then (.within w, none) else w.lex c

/-! ### Rules -/

/-- The declaration that a text holds: a property in front of the first colon and what is behind it.
A text without colon holds none. -/
def declaration? (cs : List Char) : Option Declaration :=
  match cs.dropWhile (· ≠ ':') with
  | [] => none
  | _ :: value =>
    some ⟨String.ofList ((cs.takeWhile (· ≠ ':')).rdropWhile isSpace), String.ofList value⟩

/-- What has been read of a rule: its prelude, or the prelude, the declarations that are complete,
and the beginning of the next one. -/
inductive Part where
  | prelude (text : List Char)
  | block (selector : String) (declarations : List Declaration) (item : List Char)
deriving DecidableEq, Repr

/-- Text with one more character; blanks at the front are dropped. -/
def putChar (cs : List Char) (c : Char) : List Char :=
  if cs = [] ∧ isSpace c then [] else cs ++ [c]

/-- The part with one more character. -/
def Part.put (c : Char) : Part → Part
  | prelude text => prelude (putChar text c)
  | block selector declarations item => block selector declarations (putChar item c)

/-- Where the reader is: in a token, in brackets that wait for their closing ones, and in a rule. -/
structure State where
  place : Place
  closers : List Char
  part : Part
deriving DecidableEq, Repr

/-- The reader between two rules. -/
def start : State := ⟨.within (.plain []), [], .prelude []⟩

/-- The bracket that closes one. -/
def closer? (c : Char) : Option Char :=
  if c = '(' then some ')' else if c = '[' then some ']' else if c = '{' then some '}' else none

/-- What a mark does in brackets or where it divides nothing: it closes or opens a bracket or is a
character like others. -/
def settle (closers : List Char) (mark : Char) : List Char :=
  match closer? mark with
  | some closer => closer :: closers
  | none => if closers.head? = some mark then closers.tail else closers

/-- What one character does. -/
def step (s : State) (c : Char) : State × List Rule :=
  match s.place.lex c with
  | (place, none) => (⟨place, s.closers, s.part.put c⟩, [])
  | (place, some mark) =>
    match s.closers, s.part with
    | [], .prelude text =>
      if mark = '{' then
        (⟨place, [], .block (String.ofList (text.rdropWhile isSpace)) [] []⟩, [])
      else if mark = ';' ∧ text.head? = some '@' then
        (⟨place, [], .prelude []⟩, [⟨String.ofList text, []⟩])
      else (⟨place, settle [] mark, s.part.put c⟩, [])
    | [], .block selector declarations item =>
      if mark = '}' then
        (⟨place, [], .prelude []⟩, [⟨selector, declarations ++ (declaration? item).toList⟩])
      else if mark = ';' then
        (⟨place, [], .block selector (declarations ++ (declaration? item).toList) []⟩, [])
      else (⟨place, settle [] mark, s.part.put c⟩, [])
    | closers, part => (⟨place, settle closers mark, part.put c⟩, [])

/-- The rule that is complete after all when a style sheet ends. -/
def State.rest (s : State) : List Rule :=
  match s.part with
  | .prelude _ => []
  | .block selector declarations item => [⟨selector, declarations ++ (declaration? item).toList⟩]

/-- The rules of a style sheet. -/
def read (text : String) : List Rule :=
  (run step start text.toList).1 ++ (run step start text.toList).2.rest

/-- The text completes these rules in the state `s`, and the reader is in the state `t` then. -/
abbrev Reads (s : State) (cs : List Char) (out : List Rule) (t : State) : Prop :=
  Text.Reads step s cs out t

theorem read_eq {text : String} {out : List Rule} (h : Reads start text.toList out start) :
    read text = out := h.results_append_nil rfl

/-- The marks of a rule divide it, those in a string do not. -/
example : read "a \x7b b: \"\x7d\"; c \x7d .d\x7be:f"
    = [⟨"a", [⟨"b", " \"\x7d\""⟩]⟩, ⟨".d", [⟨"e", "f"⟩]⟩] := by decide +kernel

end FrameExport.SheetReader
