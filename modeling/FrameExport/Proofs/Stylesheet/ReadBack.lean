import FrameExport.Proofs.Stylesheet.Reader
import FrameExport.Proofs.Text.Plain
import FrameExport.Stylesheet.Basic

/-!
# Rules read back

A text `Passes` where it stands in a value or a prelude if it is read as characters of it and leaves
every bracket as it was.  Characters that are no marks do so, brackets around what does so, and the
quoted string of a text without line breaks.

A rule is `Legible` if its selector and its properties are words without blanks and every value
passes.  A legible rule is read back as it is, whatever rules follow (`reads_rule`).
-/

namespace FrameExport

/-- What a style sheet says after the global rules. -/
def Stylesheet.writeRules (sheet : Stylesheet) : List Char :=
  sheet.rules.flatMap (fun rule => '\n' :: '\n' :: rule.write) ++ ['\n']

theorem Stylesheet.write_eq (sheet : Stylesheet) : sheet.write = globalText ++ sheet.writeRules :=
  List.append_assoc _ _ _

namespace SheetReader

open Text (run isSpace Word isWordChar word_append)

/-! ### Texts that pass -/

/-- The reader outside strings and comments, in round brackets of the given number. -/
def outside (name : List Char) (brackets : Nat) (part : Part) : State :=
  ⟨.within (.plain name), List.replicate brackets ')', part⟩

/-- The part with more characters. -/
def Part.putAll (cs : List Char) (part : Part) : Part := cs.foldl (fun p c => p.put c) part

theorem Part.putAll_append (cs ds : List Char) (part : Part) :
    part.putAll (cs ++ ds) = (part.putAll cs).putAll ds := List.foldl_append

/-- The text is read as characters of what it stands in. -/
def Passes (name cs name' : List Char) : Prop :=
  ∀ brackets part,
    Reads (outside name brackets part) cs [] (outside name' brackets (part.putAll cs))

variable {cs ds name name' name'' : List Char} {c : Char}

theorem Passes.nil (name : List Char) : Passes name [] name := fun _ _ => .nil _ _

theorem Passes.append (h : Passes name cs name') (h' : Passes name' ds name'') :
    Passes name (cs ++ ds) name'' := by
  intro brackets part
  have hboth := (h brackets part).append (h' brackets (part.putAll cs))
  rwa [List.append_nil, ← Part.putAll_append] at hboth

/-- A mark that neither divides nor closes anything is a character like others. -/
theorem step_mark {s : State} {place : Place} {mark : Char}
    (hlex : s.place.lex c = (place, some mark)) (hopen : mark ≠ '{') (hclose : mark ≠ '}')
    (hsemicolon : mark ≠ ';') :
    step s c = (⟨place, settle s.closers mark, s.part.put c⟩, []) := by
  rw [step, hlex]
  obtain ⟨-, closers, part⟩ := s
  cases closers with
  | cons closer closers => rfl
  | nil =>
    cases part with
    | prelude text => simp only [hopen, hsemicolon, false_and, if_false]
    | block selector declarations item => simp only [hclose, hsemicolon, if_false]

theorem step_none {s : State} {place : Place} (hlex : s.place.lex c = (place, none)) :
    step s c = (⟨place, s.closers, s.part.put c⟩, []) := by
  rw [step, hlex]

/-! ### Characters that are no marks -/

/-- The characters that mean something outside strings. -/
def marks : List Char := "/\"'\\()[]\x7b\x7d;".toList

/-- A text without marks. -/
def Unmarked (cs : List Char) : Prop := ∀ c ∈ cs, c ∉ marks

instance (cs : List Char) : Decidable (Unmarked cs) := List.decidableBAll ..

/-- The name that ends with a character that is no mark. -/
def nextName (name : List Char) (c : Char) : List Char := if isNameChar c then name ++ [c] else []

theorem step_of_notMem (hc : c ∉ marks) (brackets : Nat) (part : Part) :
    step (outside name brackets part) c
      = (outside (nextName name c) brackets (part.put c), []) := by
  have hne : ∀ d ∈ marks, c ≠ d := fun d hd heq => hc (heq ▸ hd)
  have hlex : (outside name brackets part).place.lex c
      = if isNameChar c then (.within (.plain (name ++ [c])), none)
        else (.within (.plain []), some c) := by
    show (Within.plain name).lex c = _
    rw [Within.lex, if_neg (hne '/' (by decide)), if_neg (not_or.mpr ⟨hne '"' (by decide),
      hne '\'' (by decide)⟩), if_neg (hne '\\' (by decide)),
      if_neg fun h => hne '(' (by decide) h.1]
  unfold nextName
  by_cases hname : isNameChar c = true
  · rw [if_pos hname] at hlex ⊢
    exact step_none hlex
  · rw [if_neg hname] at hlex ⊢
    have hcloser : closer? c = none := by
      rw [closer?, if_neg (hne '(' (by decide)), if_neg (hne '[' (by decide)),
        if_neg (hne '{' (by decide))]
    have hsettle : settle (List.replicate brackets ')') c = List.replicate brackets ')' := by
      rw [settle, hcloser]
      refine if_neg fun hhead => ?_
      have hmem := List.mem_of_mem_head? (Option.mem_def.mpr hhead)
      exact hne ')' (by decide) (List.eq_of_mem_replicate hmem)
    have hstep := step_mark hlex (hne '{' (by decide)) (hne '}' (by decide)) (hne ';' (by decide))
    rw [hstep]
    exact congrArg (fun closers => ((⟨_, closers, _⟩ : State), _)) hsettle

/-- A text without marks passes. -/
theorem Unmarked.passes (h : Unmarked cs) (name : List Char) :
    Passes name cs (cs.foldl nextName name) := by
  intro brackets part
  induction cs generalizing name part with
  | nil => exact .nil _ _
  | cons c cs ih =>
    obtain ⟨hc, hrest⟩ := List.forall_mem_cons.mp h
    exact .cons (step_of_notMem hc brackets part) (ih hrest _ _)

/-- No character of a word is a mark. -/
theorem unmarked_of_word (h : Word cs) : Unmarked cs := by
  have hmarks : marks.all (fun d => !isWordChar d) = true := by decide
  intro c hc hmem
  have hnot := List.all_eq_true.mp hmarks c hmem
  rw [h c hc] at hnot
  cases hnot

theorem passes_word (h : Word cs) (name : List Char) : Passes name cs (cs.foldl nextName name) :=
  (unmarked_of_word h).passes name

/-! ### Brackets -/

/-- A text in round brackets passes behind every name but that of an address. -/
theorem passes_brackets (hname : name.map Char.toLower ≠ "url".toList) (h : Passes [] cs name') :
    Passes name ('(' :: (cs ++ [')'])) [] := by
  intro brackets part
  have hopen : (outside name brackets part).place.lex '(' = (.within (.plain []), some '(') := by
    show (Within.plain name).lex '(' = _
    rw [Within.lex, if_neg (by decide), if_neg (by decide), if_neg (by decide),
      if_neg fun heq => hname heq.2, if_neg (by decide)]
  have hclose : ∀ part, (outside name' (brackets + 1) part).place.lex ')'
      = (.within (.plain []), some ')') := by
    intro part
    show (Within.plain name').lex ')' = _
    rw [Within.lex, if_neg (by decide), if_neg (by decide), if_neg (by decide),
      if_neg fun heq => absurd heq.1 (by decide), if_neg (by decide)]
  have hfirst : step (outside name brackets part) '('
      = (outside [] (brackets + 1) (part.put '('), []) :=
    step_mark hopen (by decide) (by decide) (by decide)
  have hlast : ∀ part, step (outside name' (brackets + 1) part) ')'
      = (outside [] brackets (part.put ')'), []) :=
    fun part => step_mark (hclose part) (by decide) (by decide) (by decide)
  have hall := Text.Reads.cons hfirst ((h (brackets + 1) (part.put '(')).append
    (.cons (hlast _) (.nil _ _)))
  have hput : Part.putAll ('(' :: (cs ++ [')'])) part = ((part.put '(').putAll cs).put ')' :=
    List.foldl_append
  rw [hput]
  exact hall

/-! ### Strings -/

/-- An escaped character is read as a part of its string. -/
theorem reads_escapeChar (hc : isLineBreak c = false) (closers : List Char) (part : Part) :
    Reads ⟨.within (.quoted '"'), closers, part⟩ (Typography.escapeChar c) []
      ⟨.within (.quoted '"'), closers, part.putAll (Typography.escapeChar c)⟩ := by
  unfold Typography.escapeChar
  split
  · rename_i hmark
    have hback : step ⟨.within (.quoted '"'), closers, part⟩ '\\'
        = (⟨.escape (.quoted '"'), closers, part.put '\\'⟩, []) := rfl
    have hescaped : step ⟨.escape (.quoted '"'), closers, part.put '\\'⟩ c
        = (⟨.within (.quoted '"'), closers, (part.put '\\').put c⟩, []) := by
      rcases hmark with rfl | rfl <;> rfl
    exact .cons hback (.cons hescaped (.nil _ _))
  · rename_i hplain
    rw [not_or] at hplain
    have hlex : (Within.quoted '"').lex c = (.within (.quoted '"'), none) := by
      rw [Within.lex, if_neg (by simp [hplain.2, hc]), if_neg hplain.1]
    have hstep : step ⟨.within (.quoted '"'), closers, part⟩ c
        = (⟨.within (.quoted '"'), closers, part.put c⟩, []) := by
      rw [step, Place.lex, hlex]
    exact .cons hstep (.nil _ _)

/-- The string of a text without line breaks passes, whatever else the text holds. -/
theorem passes_quoted (h : Unbroken cs) (name : List Char) :
    Passes name (Typography.quoted cs) [] := by
  intro brackets part
  have hinner : ∀ part : Part, Reads ⟨.within (.quoted '"'), List.replicate brackets ')', part⟩
      (cs.flatMap Typography.escapeChar) []
      ⟨.within (.quoted '"'), List.replicate brackets ')',
        part.putAll (cs.flatMap Typography.escapeChar)⟩ := by
    induction cs with
    | nil => exact fun part => .nil _ _
    | cons c cs ih =>
      intro part
      obtain ⟨hc, hrest⟩ := List.forall_mem_cons.mp h
      rw [List.flatMap_cons, Part.putAll_append]
      exact (reads_escapeChar hc _ part).append (ih hrest _)
  have hopen : step (outside name brackets part) '"'
      = (⟨.within (.quoted '"'), List.replicate brackets ')', part.put '"'⟩, []) := rfl
  have hclose : ∀ part : Part, step ⟨.within (.quoted '"'), List.replicate brackets ')', part⟩ '"'
      = (outside [] brackets (part.put '"'), []) := fun part => rfl
  have hall := Text.Reads.cons hopen ((hinner (part.put '"')).append
    (.cons (hclose _) (.nil _ _)))
  have hput : Part.putAll ('"' :: (cs.flatMap Typography.escapeChar ++ ['"'])) part
      = ((part.put '"').putAll (cs.flatMap Typography.escapeChar)).put '"' :=
    List.foldl_append
  rw [Typography.quoted_eq, hput]
  exact hall

/-! ### Names -/

/-- Selectors of classes and properties: words without blanks. -/
def Label (cs : List Char) : Prop := cs ≠ [] ∧ Word cs ∧ ' ' ∉ cs

instance (cs : List Char) : Decidable (Label cs) := inferInstanceAs (Decidable (_ ∧ _))

theorem Label.isSpace_eq_false (h : Label cs) (hc : c ∈ cs) : isSpace c = false := by
  obtain ⟨-, hword, hblank⟩ := h
  have hne : ∀ d, isWordChar d = false → c ≠ d := by
    rintro d hd rfl
    rw [hword c hc] at hd
    cases hd
  have hspace : c ≠ ' ' := fun heq => hblank (heq ▸ hc)
  simp [isSpace, hspace, hne '\n' (by decide), hne '\t' (by decide), hne '\r' (by decide),
    hne '\x0c' (by decide)]

theorem Label.rdropWhile (h : Label cs) : cs.rdropWhile isSpace = cs := by
  rw [List.rdropWhile_eq_self_iff]
  intro hne
  rw [h.isSpace_eq_false (List.getLast_mem hne)]
  exact Bool.false_ne_true

theorem foldl_putChar {item : List Char} (h : item ≠ []) : cs.foldl putChar item = item ++ cs := by
  induction cs generalizing item with
  | nil => exact (List.append_nil item).symm
  | cons c cs ih =>
    have hput : putChar item c = item ++ [c] := if_neg fun hboth => h hboth.1
    rw [List.foldl_cons, hput, ih (by simp), List.append_assoc, List.singleton_append]

theorem Label.foldl_putChar (h : Label cs) (ds : List Char) :
    (cs ++ ds).foldl putChar [] = cs ++ ds := by
  obtain ⟨c, cs, rfl⟩ := List.exists_cons_of_ne_nil h.1
  have hfirst : putChar [] c = [c] := by
    rw [putChar, h.isSpace_eq_false List.mem_cons_self]
    rfl
  rw [List.cons_append, List.foldl_cons, hfirst, SheetReader.foldl_putChar (List.cons_ne_nil _ _)]
  rfl

theorem Part.putAll_prelude (text : List Char) :
    (Part.prelude text).putAll cs = .prelude (cs.foldl putChar text) := by
  induction cs generalizing text with
  | nil => rfl
  | cons c cs ih => exact ih (putChar text c)

theorem Part.putAll_block (selector : String) (declarations : List Declaration)
    (item : List Char) :
    (Part.block selector declarations item).putAll cs
      = .block selector declarations (cs.foldl putChar item) := by
  induction cs generalizing item with
  | nil => rfl
  | cons c cs ih => exact ih (putChar item c)

/-! ### Declarations -/

/-- A declaration whose property is a label and whose value passes. -/
def LegibleDeclaration (d : Declaration) : Prop :=
  Label d.property.toList ∧ ∃ name, Passes [] d.value.toList name

variable {d : Declaration}

/-- The text of a declaration holds it. -/
theorem declaration?_eq (h : Label d.property.toList) :
    declaration? (d.property.toList ++ ':' :: d.value.toList) = some d := by
  have hcolon : ∀ c ∈ d.property.toList, decide (c ≠ ':') = true := by
    intro c hc
    rw [decide_eq_true_eq]
    rintro rfl
    exact absurd (h.2.1 _ hc) (by decide)
  have hdrop : (d.property.toList ++ ':' :: d.value.toList).dropWhile (· ≠ ':')
      = ':' :: d.value.toList := by
    rw [List.dropWhile_append_of_pos hcolon]
    rfl
  have htake : (d.property.toList ++ ':' :: d.value.toList).takeWhile (· ≠ ':')
      = d.property.toList := by
    rw [List.takeWhile_append_of_pos hcolon]
    exact List.append_nil _
  rw [declaration?, hdrop, htake, h.rdropWhile, String.ofList_toList]
  exact congrArg (fun value => some (Declaration.mk d.property value)) String.ofList_toList

/-- A legible declaration on a line of its own is read. -/
theorem reads_declaration (h : LegibleDeclaration d) (selector : String)
    (declarations : List Declaration) :
    Reads (outside [] 0 (.block selector declarations [])) (' ' :: ' ' :: (d.write ++ ['\n'])) []
      (outside [] 0 (.block selector (declarations ++ [d]) [])) := by
  obtain ⟨hproperty, name, hvalue⟩ := h
  have hlead : Passes [] (' ' :: ' ' :: (d.property.toList ++ [':'])) [] := by
    have hblanks : Unmarked [' ', ' '] := by decide
    have hcolon : Unmarked [':'] := by decide
    have hpasses := Unmarked.passes (List.forall_mem_append.mpr ⟨hblanks,
      List.forall_mem_append.mpr ⟨unmarked_of_word hproperty.2.1, hcolon⟩⟩) []
    rw [List.foldl_append, List.foldl_append] at hpasses
    exact hpasses
  have hitem := (hlead.append hvalue) 0 (.block selector declarations [])
  have hput : (' ' :: ' ' :: (d.property.toList ++ [':']) ++ d.value.toList).foldl putChar []
      = d.property.toList ++ ':' :: d.value.toList := by
    have hlabel := hproperty.foldl_putChar (':' :: d.value.toList)
    simpa [putChar, isSpace] using hlabel
  rw [Part.putAll_block, hput] at hitem
  have hsemicolon : ∀ item, step (outside name 0 (.block selector declarations item)) ';'
      = (outside [] 0 (.block selector (declarations ++ (declaration? item).toList) []), []) :=
    fun item => rfl
  have hbreak : ∀ declarations, step (outside [] 0 (.block selector declarations [])) '\n'
      = (outside [] 0 (.block selector declarations []), []) := fun declarations => rfl
  have hall := hitem.append (.cons (hsemicolon _) (.cons (hbreak _) (.nil _ _)))
  rw [declaration?_eq hproperty] at hall
  simpa [Declaration.write] using hall

/-! ### Rules -/

/-- A rule whose selector is a label and whose declarations are legible. -/
def Legible (rule : Rule) : Prop :=
  Label rule.selector.toList ∧ ∀ d ∈ rule.declarations, LegibleDeclaration d

theorem reads_declarations {ds : List Declaration} (h : ∀ d ∈ ds, LegibleDeclaration d)
    (selector : String) (declarations : List Declaration) :
    Reads (outside [] 0 (.block selector declarations []))
      (ds.flatMap fun d => ' ' :: ' ' :: (d.write ++ ['\n'])) []
      (outside [] 0 (.block selector (declarations ++ ds) [])) := by
  induction ds generalizing declarations with
  | nil =>
    rw [List.append_nil]
    exact .nil _ _
  | cons d ds ih =>
    obtain ⟨hd, hrest⟩ := List.forall_mem_cons.mp h
    have hboth := (reads_declaration hd selector declarations).append
      (ih hrest (declarations ++ [d]))
    rwa [List.append_assoc, List.singleton_append] at hboth

/-- A legible rule is read back. -/
theorem reads_rule {rule : Rule} (h : Legible rule) : Reads start rule.write [rule] start := by
  obtain ⟨hselector, hdeclarations⟩ := h
  have hlead := (passes_word (word_append.mpr ⟨hselector.2.1, (by decide : Word [' '])⟩) []) 0
    (.prelude [])
  rw [Part.putAll_prelude, hselector.foldl_putChar] at hlead
  have hopen : ∀ name text, step (outside name 0 (.prelude text)) '{'
      = (outside [] 0 (.block (String.ofList (text.rdropWhile isSpace)) [] []), []) :=
    fun name text => rfl
  have hbreak : ∀ selector, step (outside [] 0 (.block selector [] [])) '\n'
      = (outside [] 0 (.block selector [] []), []) := fun selector => rfl
  have hclose : ∀ selector declarations,
      step (outside [] 0 (.block selector declarations [])) '}'
        = (start, [⟨selector, declarations⟩]) := by
    intro selector declarations
    have hstep : step (outside [] 0 (.block selector declarations [])) '}'
        = (start, [⟨selector, declarations ++ []⟩]) := rfl
    rwa [List.append_nil] at hstep
  have hdropped : String.ofList ((rule.selector.toList ++ [' ']).rdropWhile isSpace)
      = rule.selector := by
    rw [List.rdropWhile_concat_pos _ _ _ (by decide), hselector.rdropWhile, String.ofList_toList]
  have hall := hlead.append (.cons (hopen _ _) (.cons (hbreak _)
    ((reads_declarations hdeclarations _ []).append (.cons (hclose _ _) (.nil _ _)))))
  rw [hdropped] at hall
  have hwrite : rule.write = rule.selector.toList ++ [' '] ++ '{' :: '\n'
      :: (rule.declarations.flatMap (fun d => ' ' :: ' ' :: (d.write ++ ['\n'])) ++ ['}']) := by
    simp [Rule.write]
  rw [hwrite]
  exact hall

/-- Legible rules behind empty lines are read back. -/
theorem reads_rules {rules : List Rule} (h : ∀ rule ∈ rules, Legible rule) :
    Reads start (rules.flatMap fun rule => '\n' :: '\n' :: rule.write) rules start := by
  have hbreak : step start '\n' = (start, []) := rfl
  induction rules with
  | nil => exact .nil _ _
  | cons rule rules ih =>
    obtain ⟨hrule, hrest⟩ := List.forall_mem_cons.mp h
    exact .cons hbreak (.cons hbreak ((reads_rule hrule).append (ih hrest)))

/-! ### Style sheets -/

theorem reads_globalText : Reads start Stylesheet.globalText Stylesheet.globalRules start := by
  decide +kernel

/-- The global rules are read first, and then what is written after them. -/
theorem read_text_eq (sheet : Stylesheet) :
    read sheet.text = Stylesheet.globalRules ++ ((run step start sheet.writeRules).1
      ++ (run step start sheet.writeRules).2.rest) := by
  have hrules : Reads start sheet.writeRules _ _ := rfl
  have hall := reads_globalText.append hrules
  rw [read, Stylesheet.text, String.toList_ofList, Stylesheet.write_eq]
  rw [show run step start (Stylesheet.globalText ++ sheet.writeRules) = (_, _) from hall,
    List.append_assoc]

/-- A style sheet of legible rules is read back. -/
theorem read_text_of_legible {sheet : Stylesheet} (h : ∀ rule ∈ sheet.rules, Legible rule) :
    read sheet.text = Stylesheet.globalRules ++ sheet.rules := by
  have hbreak : step start '\n' = (start, []) := rfl
  have hall := (reads_rules h).append (.cons hbreak (.nil _ _))
  rw [List.append_nil, List.append_nil] at hall
  rw [read_text_eq, show run step start sheet.writeRules = (_, _) from hall]
  exact congrArg (_ ++ ·) (List.append_nil _)

end SheetReader

end FrameExport
