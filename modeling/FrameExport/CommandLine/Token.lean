import FrameExport.Text.Digit

/-!
# Tokens of a command line

Each argument of a command line is a word or an option.  Two hyphens alone divide: everything after
them is a word.  A long option may be cut short as long as only one option begins so, and what
follows an equals sign is attached to it.  A negative number is a word, and so is a text with a
blank in it that is no option.
-/

namespace FrameExport

/-- The options that there are. -/
inductive Flag where
  | help
  | noCache
  | cacheDir
deriving DecidableEq, Repr

namespace Flag

/-- The long name of an option. -/
def name : Flag → String
  | .help => "--help"
  | .noCache => "--no-cache"
  | .cacheDir => "--cache-dir"

/-- The name of an option in messages. -/
def shownName : Flag → String
  | .help => "-h/--help"
  | .noCache => "--no-cache"
  | .cacheDir => "--cache-dir"

/-- All options. -/
def all : List Flag := [.help, .noCache, .cacheDir]

end Flag

/-- What an argument is. -/
inductive Token where
  | word (text : String)
  /-- The two hyphens after which everything is a word. -/
  | divider
  /-- An option with the text that is attached to it. -/
  | flag (flag : Flag) (attached : Option String)
  /-- Something that looks like an option but is none. -/
  | unknown (text : String)
deriving DecidableEq, Repr

namespace Token

/-- An argument that begins like several options. -/
structure Ambiguous where
  text : String
  flags : List Flag
deriving DecidableEq, Repr

/-- A text up to its first equals sign, and what follows that. -/
def splitAtEquals : List Char → List Char × Option (List Char)
  | [] => ([], none)
  | c :: cs =>
    if c = '=' then ([], some cs)
    else ((c :: (splitAtEquals cs).1), (splitAtEquals cs).2)

/-- Whether characters are a run of decimal digits. -/
def isDigits (cs : List Char) : Bool :=
  !cs.isEmpty && cs.all fun c => (Text.digitValue? c).isSome

/-- Whether the characters after a hyphen make a negative number. -/
def isMagnitude (cs : List Char) : Bool :=
  let cs := if cs.getLast? = some '\n' then cs.dropLast else cs
  isDigits cs
    || match cs.dropWhile fun c => (Text.digitValue? c).isSome with
      | '.' :: places => isDigits places
      | _ => false

/-- What is attached to the short option for help by the characters after its letter.  The letter
may be repeated, and the first character that is another one begins what is attached. -/
def attachedToHelp : List Char → Option String
  | [] => none
  | c :: cs => if c = 'h' then attachedToHelp cs else some (String.ofList (c :: cs))

/-- The short option for help with the characters after its letter.  An equals sign in front of them
is not attached, and attaches the empty text if nothing follows it. -/
def helpWith : List Char → Token
  | ['='] => .flag .help (some "")
  | '=' :: cs => .flag .help (attachedToHelp cs)
  | cs => .flag .help (attachedToHelp cs)

/-- What an argument is that is neither a known option nor the beginning of one. -/
def ofRest (text : String) : Token :=
  if isMagnitude (text.toList.drop 1) || text.toList.contains ' ' then .word text else .unknown text

/-- What an argument in front of the divider is. -/
def ofArgument (text : String) : Except Ambiguous Token :=
  match text.toList with
  | '-' :: 'h' :: rest => .ok (helpWith rest)
  | '-' :: '-' :: rest =>
    if rest.isEmpty then .ok .divider
    else
      let (front, attached) := splitAtEquals text.toList
      match Flag.all.filter fun f => front.isPrefixOf f.name.toList with
      | [f] => .ok (.flag f (attached.map String.ofList))
      | [] => .ok (ofRest text)
      | several => .error ⟨text, several⟩
  | '-' :: _ :: _ => .ok (ofRest text)
  | _ => .ok (.word text)

/-- What the arguments of a command line are. -/
def ofArguments : List String → Except Ambiguous (List Token)
  | [] => .ok []
  | text :: rest => do
    match ← ofArgument text with
    | .divider => return .divider :: rest.map .word
    | token => return token :: (← ofArguments rest)

end Token

end FrameExport
