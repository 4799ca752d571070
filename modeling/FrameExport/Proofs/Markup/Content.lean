import FrameExport.Proofs.Markup.Tokenizer
import Mathlib.Data.List.Forall2

/-!
# What tags enclose

`Markup.contents?` reads a document as the characters, remarks and elements that it consists of.
Every closing tag has to close the element that was opened last, and every element has to be closed,
but for those that never hold anything; a document in which the tags are not properly nested is not
read at all.

`Denotes cs vs` says that a text is read as the contents `vs`, wherever between tags it stands.  It
is closed under putting texts in a row (`Denotes.append`) and into an element (`Denotes.element`).
-/

namespace FrameExport.Markup

/-- What a document consists of. -/
inductive Content where
  | char (c : Char)
  | remark
  | element (name : List Char) (attributes : List (List Char × List Char))
    (contents : List Content)
deriving Repr

/-- Characters that stand between tags. -/
def chars (cs : List Char) : List Content := cs.map .char

/-- The elements that never hold anything and have no closing tag. -/
def neverHolds : List (List Char) :=
  ["area".toList, "base".toList, "br".toList, "col".toList, "embed".toList, "hr".toList,
    "img".toList, "input".toList, "link".toList, "meta".toList, "source".toList, "track".toList,
    "wbr".toList]

mutual

/-- The tokens of a character, a remark or an element. -/
def Content.tokens : Content → List Token
  | .char c => [.char c]
  | .remark => [.remark]
  | .element name attributes contents =>
    .opening name attributes ::
      if neverHolds.contains name then [] else tokensOf contents ++ [.closing name]

/-- The tokens of contents. -/
def tokensOf : List Content → List Token
  | [] => []
  | v :: vs => v.tokens ++ tokensOf vs

end

/-! ### Reading -/

/-- An element that has not been closed yet, with the contents in front of it. -/
structure OpenElement where
  name : List Char
  attributes : List (List Char × List Char)
  before : List Content
deriving Repr

/-- The contents that tokens make behind the contents `done`, in the open elements of `stack`. -/
def nest (stack : List OpenElement) (done : List Content) : List Token → Option (List Content)
  | [] => if stack.isEmpty then some done else none
  | .char c :: ts => nest stack (done ++ [.char c]) ts
  | .remark :: ts => nest stack (done ++ [.remark]) ts
  | .opening name attributes :: ts =>
    if neverHolds.contains name then nest stack (done ++ [.element name attributes []]) ts
    else nest (⟨name, attributes, done⟩ :: stack) [] ts
  | .closing name :: ts =>
    match stack with
    | [] => none
    | e :: stack =>
      if name = e.name then nest stack (e.before ++ [.element e.name e.attributes done]) ts
      else none

/-- The contents of a document, if its tags are properly nested. -/
def contents? (cs : List Char) : Option (List Content) := nest [] [] (tokens cs)

/-! ### Texts and their contents -/

variable {cs ds : List Char} {vs ws : List Content} {name openTag closeTag : List Char}
  {attributes : List (List Char × List Char)}

theorem tokensOf_append (vs ws : List Content) :
    tokensOf (vs ++ ws) = tokensOf vs ++ tokensOf ws := by
  induction vs with
  | nil => rfl
  | cons v vs ih => rw [List.cons_append, tokensOf, ih, tokensOf, List.append_assoc]

theorem tokensOf_chars (cs : List Char) : tokensOf (chars cs) = cs.map .char := by
  induction cs with
  | nil => rfl
  | cons c cs ih =>
    rw [List.map_cons, ← ih]
    rfl

theorem tokensOf_element (hname : neverHolds.contains name = false) :
    tokensOf [.element name attributes vs]
      = .opening name attributes :: (tokensOf vs ++ [.closing name]) := by
  rw [tokensOf, Content.tokens, hname, tokensOf, List.append_nil]
  rfl

/-- The contents are read back from their tokens, in whatever elements and behind whatever contents
these stand. -/
def Nests (vs : List Content) : Prop :=
  ∀ stack done rest, nest stack done (tokensOf vs ++ rest) = nest stack (done ++ vs) rest

namespace Nests

theorem append (h : Nests vs) (h' : Nests ws) : Nests (vs ++ ws) := by
  intro stack done rest
  rw [tokensOf_append, List.append_assoc, h, h', List.append_assoc]

theorem chars (cs : List Char) : Nests (chars cs) := by
  intro stack done rest
  rw [tokensOf_chars, Markup.chars]
  induction cs generalizing done with
  | nil => rw [List.map_nil, List.map_nil, List.nil_append, List.append_nil]
  | cons c cs ih =>
    rw [List.map_cons, List.cons_append, nest, ih, List.append_assoc]
    rfl

/-- An element holds what stands between its tags. -/
theorem element (hname : neverHolds.contains name = false) (h : Nests vs) :
    Nests [.element name attributes vs] := by
  intro stack done rest
  rw [tokensOf_element hname, List.cons_append, List.append_assoc, nest, hname,
    if_neg Bool.false_ne_true, h, List.nil_append, List.singleton_append, nest, if_pos rfl]

end Nests

/-- The text is read as these contents, wherever between tags it stands. -/
structure Denotes (cs : List Char) (vs : List Content) : Prop where
  reads : Reads .content cs (tokensOf vs) .content
  nests : Nests vs

theorem contents?_eq (h : Denotes cs vs) : contents? cs = some vs := by
  have hall := h.nests [] [] []
  rw [List.append_nil, List.nil_append] at hall
  rw [contents?, tokens_eq h.reads, hall]
  rfl

namespace Denotes

theorem append (h : Denotes cs vs) (h' : Denotes ds ws) : Denotes (cs ++ ds) (vs ++ ws) where
  reads := by
    rw [tokensOf_append]
    exact h.reads.append h'.reads
  nests := h.nests.append h'.nests

/-- A text without the mark that opens a tag is read as its characters. -/
theorem chars (h : '<' ∉ cs) : Denotes cs (Markup.chars cs) where
  reads := by
    rw [tokensOf_chars]
    exact .content h
  nests := .chars cs

theorem nil : Denotes [] [] := chars List.not_mem_nil

/-- A remark is kept among the contents. -/
theorem remark (h : Reads .content cs [.remark] .content) : Denotes cs [.remark] where
  reads := h
  nests := by
    intro stack done rest
    rw [tokensOf, tokensOf, List.append_nil, Content.tokens, List.singleton_append, nest]

/-- A tag on its own is an element that never holds anything. -/
theorem empty (hname : neverHolds.contains name = true)
    (h : Reads .content cs [.opening name attributes] .content) :
    Denotes cs [.element name attributes []] where
  reads := by
    rw [tokensOf, tokensOf, Content.tokens, if_pos hname, List.append_nil]
    exact h
  nests := by
    intro stack done rest
    rw [tokensOf, tokensOf, Content.tokens, if_pos hname, List.append_nil, List.singleton_append,
      nest, if_pos hname]

/-- A text between the two tags of an element. -/
theorem element (hname : neverHolds.contains name = false)
    (hopen : Reads .content openTag [.opening name attributes] .content)
    (hclose : Reads .content closeTag [.closing name] .content) (h : Denotes cs vs) :
    Denotes (openTag ++ (cs ++ closeTag)) [.element name attributes vs] where
  reads := by
    rw [tokensOf_element hname]
    exact hopen.append (h.reads.append hclose)
  nests := h.nests.element hname

/-- A text between the two tags of an element that holds text only. -/
theorem textElement (hname : neverHolds.contains name = false)
    (hopen : Reads .content openTag [.opening name attributes] (.text name []))
    (hclose : Reads (.text name []) closeTag [.closing name] .content) (h : '<' ∉ cs) :
    Denotes (openTag ++ (cs ++ closeTag)) [.element name attributes (Markup.chars cs)] where
  reads := by
    rw [tokensOf_element hname, tokensOf_chars]
    exact hopen.append ((Reads.textOnly h).append hclose)
  nests := (Nests.chars cs).element hname

/-- Texts with a text between any two of them. -/
theorem intercalate {sep : List Char} {between : List Content} {css : List (List Char)}
    {vss : List (List Content)} (hsep : Denotes sep between)
    (h : List.Forall₂ Denotes css vss) :
    Denotes (sep.intercalate css) (between.intercalate vss) := by
  induction h with
  | nil => exact nil
  | @cons cs vs css vss hfirst hrest ih =>
    cases hrest with
    | nil =>
      rw [List.intercalate_singleton, List.intercalate_singleton]
      exact hfirst
    | cons hsecond hrest =>
      rw [List.intercalate_cons_cons, List.intercalate_cons_cons]
      exact (hfirst.append hsep).append ih

end Denotes

end FrameExport.Markup
