import FrameExport.Decimal.Basic
import FrameExport.Json.Basic
import FrameExport.Text.Scalar

/-!
# Reading JSON

`Json.read` reads a text that holds exactly one value, with white space around it.  Beyond the
common grammar it accepts the words `NaN`, `Infinity` and `-Infinity`.  A number with a fraction or
an exponent is a double and otherwise an integer, for which at most 4300 digits are allowed.  A key
that occurs again replaces the value of its first occurrence.

A text that is no value is refused with the offset of the first character that cannot be part of
one, which for a text that does not end is its opening mark.  Reading goes left to right without
looking back; the functions return the rest of the text and stop with the rest at the fault.
-/

namespace FrameExport.Json

/-- Why a text is no JSON value. -/
inductive ReadError where
  /-- The character at this offset cannot stand there. -/
  | malformed (offset : Nat)
  /-- An integer has more digits than are allowed. -/
  | tooManyDigits
deriving DecidableEq, Repr

/-- Where reading stops: at a malformed rest, or at an integer of too many digits. -/
inductive Stop where
  | malformed (rest : List Char)
  | tooManyDigits

/-- The most digits an integer may have. -/
def maxIntDigits : Nat := 4300

/-- White space between the parts of a value. -/
def isSpace (c : Char) : Bool := c = ' ' || c = '\n' || c = '\t' || c = '\r'

/-- The text from the first character that is no white space. -/
def skipSpace (cs : List Char) : List Char := cs.dropWhile isSpace

/-- The rest of a text after a word that it begins with. -/
def after? : (word text : List Char) → Option (List Char)
  | [], cs => some cs
  | _ :: _, [] => none
  | w :: ws, c :: cs => if w = c then after? ws cs else none

/-! ### Texts -/

/-- The value of a hexadecimal digit. -/
def hexValue? (c : Char) : Option Nat :=
  if c.isDigit then some (c.toNat - '0'.toNat)
  else if 'a' ≤ c ∧ c ≤ 'f' then some (c.toNat - 'a'.toNat + 10)
  else if 'A' ≤ c ∧ c ≤ 'F' then some (c.toNat - 'A'.toNat + 10)
  else none

/-- The number that four hexadecimal digits denote. -/
def hexValue4? (a b c d : Char) : Option Nat := do
  return ((← hexValue? a) * 16 + (← hexValue? b)) * 256 + ((← hexValue? c) * 16 + (← hexValue? d))

/-- The character that a letter after a backslash denotes. -/
def unescape? (c : Char) : Option Char :=
  if c = '"' ∨ c = '\\' ∨ c = '/' then some c
  else if c = 'b' then some (Char.ofNat 0x08)
  else if c = 'f' then some (Char.ofNat 0x0C)
  else if c = 'n' then some '\n'
  else if c = 'r' then some '\r'
  else if c = 't' then some '\t'
  else none

/-- The characters of a text up to its closing mark, after those in `acc` (in reverse); `start` is
the text from the opening mark on. -/
def readText (start acc : List Char) : List Char → Except Stop (List Char × List Char)
  | [] => .error (.malformed start)
  | '"' :: rest => .ok (acc.reverse, rest)
  | ['\\'] => .error (.malformed start)
  | '\\' :: 'u' :: a :: b :: c :: d :: rest =>
    match hexValue4? a b c d, rest with
    | none, _ => .error (.malformed ('u' :: a :: b :: c :: d :: rest))
    | some _, [] => .error (.malformed ('u' :: a :: b :: c :: d :: rest))
    | some high, '\\' :: 'u' :: e :: f :: g :: h :: next :: more =>
      if Text.isHighSurrogate high then
        match hexValue4? e f g h with
        | none => .error (.malformed ('u' :: e :: f :: g :: h :: next :: more))
        | some low =>
          if Text.isLowSurrogate low then
            readText start (Text.charOfPair high low :: acc) (next :: more)
          else
            readText start (Text.charOf high :: acc)
              ('\\' :: 'u' :: e :: f :: g :: h :: next :: more)
      else
        readText start (Text.charOf high :: acc)
          ('\\' :: 'u' :: e :: f :: g :: h :: next :: more)
    | some n, rest => readText start (Text.charOf n :: acc) rest
  | '\\' :: c :: rest =>
    if c = 'u' then .error (.malformed (c :: rest))
    else
      match unescape? c with
      | some u => readText start (u :: acc) rest
      | none => .error (.malformed ('\\' :: c :: rest))
  | c :: rest =>
    if c.toNat < 0x20 then .error (.malformed (c :: rest)) else readText start (c :: acc) rest

/-! ### Numbers -/

/-- A fraction at the front of a text: its digits, if a point and a digit stand there, and what
follows them. -/
def splitFraction : List Char → Option (List Char) × List Char
  | '.' :: d :: rest =>
    if d.isDigit then (some (d :: rest.takeWhile Char.isDigit), rest.dropWhile Char.isDigit)
    else (none, '.' :: d :: rest)
  | cs => (none, cs)

/-- An exponent at the front of a text: its value, if the mark and a digit stand there, and the
rest. -/
def splitExponent : List Char → Option Int × List Char
  | c :: rest =>
    if c = 'e' ∨ c = 'E' then
      let (negative, digits) := match rest with
        | '-' :: more => (true, more)
        | '+' :: more => (false, more)
        | more => (false, more)
      let n : Int := digitsValue 0 (digits.takeWhile Char.isDigit)
      if (digits.takeWhile Char.isDigit).isEmpty then (none, c :: rest)
      else (some (if negative then -n else n), digits.dropWhile Char.isDigit)
    else (none, c :: rest)
  | [] => (none, [])

/-- The digits in front of point and exponent: a zero alone, or digits that begin with no zero. -/
def splitWhole : List Char → List Char × List Char
  | '0' :: rest => (['0'], rest)
  | cs => (cs.takeWhile Char.isDigit, cs.dropWhile Char.isDigit)

/-- The number at the front of a text. -/
def readNumber (cs : List Char) : Except Stop (Json × List Char) :=
  let (negative, unsigned) := match cs with
    | '-' :: rest => (true, rest)
    | rest => (false, rest)
  let (whole, rest) := splitWhole unsigned
  if whole.isEmpty then .error (.malformed cs)
  else
    let (fraction, rest) := splitFraction rest
    let (exponent, rest) := splitExponent rest
    match fraction, exponent with
    | none, none =>
      if maxIntDigits < whole.length then .error .tooManyDigits
      else
        let n : Int := digitsValue 0 whole
        .ok (.int (if negative then -n else n), rest)
    | _, _ =>
      let places := fraction.getD []
      let d : Decimal :=
        ⟨digitsValue (digitsValue 0 whole) places, exponent.getD 0 - places.length⟩
      .ok (.double (d.toDouble negative), rest)

/-- One of the words that denote a value, or else a number, at the front of a text. -/
def readAtom (cs : List Char) : Except Stop (Json × List Char) :=
  match after? "null".toList cs with
  | some rest => .ok (.null, rest)
  | none =>
  match after? "true".toList cs with
  | some rest => .ok (.bool true, rest)
  | none =>
  match after? "false".toList cs with
  | some rest => .ok (.bool false, rest)
  | none =>
  match after? "NaN".toList cs with
  | some rest => .ok (.double .nan, rest)
  | none =>
  match after? "Infinity".toList cs with
  | some rest => .ok (.double (.infinite false), rest)
  | none =>
  match after? "-Infinity".toList cs with
  | some rest => .ok (.double (.infinite true), rest)
  | none => readNumber cs

/-! ### Values -/

/-- The object with the fields read, in order of first occurrence. -/
def ofRead (fields : Fields) : Json := .obj (fields.foldl (fun fs f => Fields.put f.1 f.2 fs) [])

mutual

/-- The value at the front of a text.  Each call of the three functions takes one from `fuel`, and
at most two calls are made before a character is read. -/
def readValue : (fuel : Nat) → List Char → Except Stop (Json × List Char)
  | 0, cs => .error (.malformed cs)
  | fuel + 1, cs =>
    match cs with
    | '"' :: rest =>
      match readText cs [] rest with
      | .ok (s, rest) => .ok (.str (String.ofList s), rest)
      | .error e => .error e
    | '[' :: rest =>
      match skipSpace rest with
      | ']' :: rest => .ok (.arr [], rest)
      | rest => readItems fuel [] rest
    | '{' :: rest =>
      match skipSpace rest with
      | '}' :: rest => .ok (.obj [], rest)
      | rest => readFields fuel [] rest
    | cs => readAtom cs

/-- The items of an array up to its closing bracket, after those in `acc` (in reverse). -/
def readItems : (fuel : Nat) → List Json → List Char → Except Stop (Json × List Char)
  | 0, _, cs => .error (.malformed cs)
  | fuel + 1, acc, cs =>
    match readValue fuel cs with
    | .error e => .error e
    | .ok (v, rest) =>
      match skipSpace rest with
      | ']' :: rest => .ok (.arr (v :: acc).reverse, rest)
      | ',' :: rest => readItems fuel (v :: acc) (skipSpace rest)
      | rest => .error (.malformed rest)

/-- The fields of an object up to its closing brace, after those in `acc` (in reverse). -/
def readFields : (fuel : Nat) → Fields → List Char → Except Stop (Json × List Char)
  | 0, _, cs => .error (.malformed cs)
  | fuel + 1, acc, cs =>
    match cs with
    | '"' :: rest =>
      match readText cs [] rest with
      | .error e => .error e
      | .ok (key, rest) =>
        match skipSpace rest with
        | ':' :: rest =>
          match readValue fuel (skipSpace rest) with
          | .error e => .error e
          | .ok (v, rest) =>
            match skipSpace rest with
            | '}' :: rest => .ok (ofRead ((String.ofList key, v) :: acc).reverse, rest)
            | ',' :: rest => readFields fuel ((String.ofList key, v) :: acc) (skipSpace rest)
            | rest => .error (.malformed rest)
        | rest => .error (.malformed rest)
    | cs => .error (.malformed cs)

end

/-- The one value that a list of characters holds. -/
def readChars (cs : List Char) : Except Stop Json :=
  match readValue (2 * cs.length + 2) (skipSpace cs) with
  | .error e => .error e
  | .ok (v, rest) =>
    match skipSpace rest with
    | [] => .ok v
    | rest => .error (.malformed rest)

/-- The one value that a text holds. -/
def read (text : String) : Except ReadError Json :=
  match readChars text.toList with
  | .ok v => .ok v
  | .error (.malformed rest) => .error (.malformed (text.toList.length - rest.length))
  | .error .tooManyDigits => .error .tooManyDigits

end FrameExport.Json
