import FrameExport.Proofs.Text.Reading
import Mathlib.Data.List.Basic

/-!
# Tokens of a document

`Markup.tokens` reads a text from left to right as a browser does: one character after the other
changes the state of the reader and may complete tokens.  Characters between tags are tokens of
their own; a tag has its name in lower case and, if it opens an element, the attributes that stand
in it.  Values of attributes are given as they are written, with their character references.

Nothing is ever refused: whatever does not have the form of a tag is text, and what is begun as a
declaration or a comment runs to its end.  In elements that hold text only, such as the title, no
tag is read but the one that closes them.

A text without marks is read as its characters (`Reads.content`), and the value of an attribute as
what stands in front of the mark that closes it (`Reads.value`).
-/

namespace FrameExport.Markup

open Text (isSpace run)

/-- What a document is made of on its surface. -/
inductive Token where
  /-- A character between tags. -/
  | char (c : Char)
  /-- An opening tag with its attributes. -/
  | opening (name : List Char) (attributes : List (List Char × List Char))
  /-- A closing tag. -/
  | closing (name : List Char)
  /-- A comment or a declaration such as that of the document type. -/
  | remark
deriving DecidableEq, Repr

/-- A tag that is being read. -/
structure Tag where
  closes : Bool
  name : List Char
  attributes : List (List Char × List Char)
deriving DecidableEq, Repr

namespace Tag

/-- The tag with one more attribute; the first one of a name counts. -/
def put (tag : Tag) (name value : List Char) : Tag :=
  if tag.attributes.any fun a => a.1 = name then tag
  else { tag with attributes := tag.attributes ++ [(name, value)] }

end Tag

/-- Where the reader is. -/
inductive State where
  /-- Between tags. -/
  | content
  /-- In an element that holds text only; `begun` is the beginning of its closing tag, if what was
  read last is one. -/
  | text (name begun : List Char)
  /-- Behind the mark that opens a tag. -/
  | mark
  /-- Behind the mark of a closing tag. -/
  | closingMark
  /-- In the name of a tag. -/
  | tagName (tag : Tag)
  /-- In front of the name of an attribute. -/
  | gap (tag : Tag)
  /-- In the name of an attribute. -/
  | attributeName (tag : Tag) (name : List Char)
  /-- Behind the name of an attribute and white space. -/
  | afterName (tag : Tag) (name : List Char)
  /-- Behind the sign in front of a value. -/
  | equals (tag : Tag) (name : List Char)
  /-- In a value between two marks. -/
  | quotedValue (quote : Char) (tag : Tag) (name value : List Char)
  /-- In a value without marks. -/
  | bareValue (tag : Tag) (name value : List Char)
  /-- Behind the closing mark of a value. -/
  | afterValue (tag : Tag)
  /-- Behind a slash in a tag. -/
  | slash (tag : Tag)
  /-- In a declaration, of which `begun` has been read. -/
  | declaration (begun : List Char)
  /-- In a comment, of which `begun` has been read. -/
  | comment (begun : List Char)
  /-- In what is no tag but is skipped up to its end like one. -/
  | skipped
deriving DecidableEq, Repr

/-- The elements that hold text only. -/
def textOnly : List (List Char) :=
  ["title".toList, "textarea".toList, "style".toList, "script".toList, "xmp".toList,
    "iframe".toList, "noembed".toList, "noframes".toList]

/-- Whether a comment with this content ends at the sign that would close a tag. -/
def endsComment (begun : List Char) : Bool :=
  begun = [] || begun = ['-'] || "--".toList.isSuffixOf begun || "--!".toList.isSuffixOf begun

/-! ### One character -/

/-- The end of a tag. -/
def finish (tag : Tag) : State × List Token :=
  if tag.closes then (.content, [.closing tag.name])
  else (if textOnly.contains tag.name then .text tag.name [] else .content,
    [.opening tag.name tag.attributes])

/-- A character in front of the name of an attribute. -/
def stepGap (tag : Tag) (c : Char) : State × List Token :=
  if isSpace c then (.gap tag, [])
  else if c = '/' then (.slash tag, [])
  else if c = '>' then finish tag
  else (.attributeName tag [c.toLower], [])

/-- A character in an element that holds text only. -/
def stepText (name begun : List Char) (c : Char) : State × List Token :=
  let plain := begun.map Token.char
  if c = '<' then (.text name ['<'], plain)
  else if begun = [] then (.text name [], [.char c])
  else if begun.map Char.toLower = '<' :: '/' :: name then
    if isSpace c then (.gap ⟨true, name, []⟩, [])
    else if c = '/' then (.slash ⟨true, name, []⟩, [])
    else if c = '>' then finish ⟨true, name, []⟩
    else (.text name [], plain ++ [.char c])
  else if (begun ++ [c]).map Char.toLower <+: '<' :: '/' :: name then (.text name (begun ++ [c]), [])
  else (.text name [], plain ++ [.char c])

/-- What one character does. -/
def step : State → Char → State × List Token
  | .content, c => if c = '<' then (.mark, []) else (.content, [.char c])
  | .text name begun, c => stepText name begun c
  | .mark, c =>
    if c = '!' then (.declaration [], [])
    else if c = '/' then (.closingMark, [])
    else if c = '?' then (.skipped, [])
    else if c.isAlpha then (.tagName ⟨false, [c.toLower], []⟩, [])
    else if c = '<' then (.mark, [.char '<'])
    else (.content, [.char '<', .char c])
  | .closingMark, c =>
    if c.isAlpha then (.tagName ⟨true, [c.toLower], []⟩, [])
    else if c = '>' then (.content, [])
    else (.skipped, [])
  | .tagName tag, c =>
    if isSpace c then (.gap tag, [])
    else if c = '/' then (.slash tag, [])
    else if c = '>' then finish tag
    else (.tagName { tag with name := tag.name ++ [c.toLower] }, [])
  | .gap tag, c => stepGap tag c
  | .attributeName tag name, c =>
    if isSpace c then (.afterName tag name, [])
    else if c = '/' then (.slash (tag.put name []), [])
    else if c = '=' then (.equals tag name, [])
    else if c = '>' then finish (tag.put name [])
    else (.attributeName tag (name ++ [c.toLower]), [])
  | .afterName tag name, c =>
    if isSpace c then (.afterName tag name, [])
    else if c = '/' then (.slash (tag.put name []), [])
    else if c = '=' then (.equals tag name, [])
    else if c = '>' then finish (tag.put name [])
    else (.attributeName (tag.put name []) [c.toLower], [])
  | .equals tag name, c =>
    if isSpace c then (.equals tag name, [])
    else if c = '"' ∨ c = '\'' then (.quotedValue c tag name [], [])
    else if c = '>' then finish (tag.put name [])
    else (.bareValue tag name [c], [])
  | .quotedValue quote tag name value, c =>
    if c = quote then (.afterValue (tag.put name value), [])
    else (.quotedValue quote tag name (value ++ [c]), [])
  | .bareValue tag name value, c =>
    if isSpace c then (.gap (tag.put name value), [])
    else if c = '>' then finish (tag.put name value)
    else (.bareValue tag name (value ++ [c]), [])
  | .afterValue tag, c => stepGap tag c
  | .slash tag, c => if c = '>' then finish tag else stepGap tag c
  | .declaration begun, c =>
    if begun ++ [c] = "--".toList then (.comment [], [])
    else if c = '>' then (.content, [.remark])
    else (.declaration (begun ++ [c]), [])
  | .comment begun, c =>
    if c = '>' ∧ endsComment begun then (.content, [.remark])
    else (.comment (begun ++ [c]), [])
  | .skipped, c => if c = '>' then (.content, [.remark]) else (.skipped, [])

/-! ### A text -/

/-- The characters that are text after all when a document ends; a tag that is not complete is
dropped. -/
def State.rest : State → List Token
  | .mark => [.char '<']
  | .closingMark => [.char '<', .char '/']
  | .text _ begun => begun.map Token.char
  | _ => []

/-- The tokens of a document. -/
def tokens (cs : List Char) : List Token :=
  (run step .content cs).1 ++ (run step .content cs).2.rest

/-- The text completes these tokens in the state `s`, and the reader is in the state `t` then. -/
abbrev Reads (s : State) (cs : List Char) (out : List Token) (t : State) : Prop :=
  Text.Reads step s cs out t

theorem tokens_eq {cs : List Char} {out : List Token} (h : Reads .content cs out .content) :
    tokens cs = out := h.results_append_nil rfl

namespace Reads

variable {cs : List Char}

/-! ### Texts without marks -/

/-- A text without the mark that opens a tag is read as its characters. -/
theorem content (h : '<' ∉ cs) : Reads .content cs (cs.map .char) .content := by
  induction cs with
  | nil => exact .nil _ _
  | cons c cs ih =>
    rw [List.mem_cons, not_or] at h
    have hstep : step .content c = (.content, [.char c]) := by
      rw [step, if_neg (Ne.symm h.1)]
    exact .cons hstep (ih h.2)

/-- The same holds in an element that holds text only. -/
theorem textOnly {name : List Char} (h : '<' ∉ cs) :
    Reads (.text name []) cs (cs.map .char) (.text name []) := by
  induction cs with
  | nil => exact .nil _ _
  | cons c cs ih =>
    rw [List.mem_cons, not_or] at h
    have hstep : step (.text name []) c = (.text name [], [.char c]) := by
      rw [step, stepText, if_neg (Ne.symm h.1), if_pos rfl]
    exact .cons hstep (ih h.2)

/-- A value runs to the mark with which it began, whatever else stands in it. -/
theorem value {quote : Char} (tag : Tag) (name value : List Char) (h : quote ∉ cs) :
    Reads (.quotedValue quote tag name value) cs []
      (.quotedValue quote tag name (value ++ cs)) := by
  induction cs generalizing value with
  | nil =>
    rw [List.append_nil]
    exact .nil _ _
  | cons c cs ih =>
    rw [List.mem_cons, not_or] at h
    have hstep : step (.quotedValue quote tag name value) c
        = (.quotedValue quote tag name (value ++ [c]), []) := by
      rw [step, if_neg (Ne.symm h.1)]
    have hrest := Text.Reads.cons hstep (ih (value ++ [c]) h.2)
    rwa [List.append_assoc, List.singleton_append] at hrest

end Reads

end FrameExport.Markup
