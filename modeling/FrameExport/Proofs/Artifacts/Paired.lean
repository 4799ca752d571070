import FrameExport.Proofs.Files.Directories
import FrameExport.Proofs.Session
import Mathlib.Data.List.Induction

/-!
# Pages and their style sheets

The style sheet and the page are written one after the other, each into a file that is emptied first,
and nothing is taken back when something fails.  A call does one of five things (`Outcome`).

A style sheet is left without its page only where a directory has the name of the page.  That
directory stays, so there is no page in its place, then or later; hence a page never stands without a
style sheet (`Paired`).  A text that cannot be encoded leaves its file empty, and then what stands in
the directory is not what one call has written (`Call.Empties`).  Nothing else comes between a page and
its style sheet: `HoldsLast` says that a directory that no call has written into has no page, and that
any other has the page and the style sheet of the last call that has.  Every call keeps this for a
directory in which it empties nothing (`Outcome.holdsLast`), hence a whole row of calls does
(`holdsLast_after`), and `page_with_stylesheet` tells it of every directory, whatever the paths were
that led there.
-/

namespace FrameExport

/-- Names of one length make paths of one length. -/
theorem Path.utf8ByteSize_text_child (path : Path) {name name' : String}
    (h : name.utf8ByteSize = name'.utf8ByteSize) :
    (path.child name).text.utf8ByteSize = (path.child name').text.utf8ByteSize := by
  by_cases hnames : path.names = []
  · rw [text_child_of_bare hnames, text_child_of_bare hnames, String.utf8ByteSize_append,
      String.utf8ByteSize_append, h]
  · simp only [text_child hnames, String.utf8ByteSize_append, h]

namespace FileTree

variable {tree tree' : FileTree} {path : Path} {location other : Location}

/-- A path is that of one directory only. -/
theorem Leads.unique (h : tree.Leads path location) (h' : tree.Leads path other) :
    location = other := by
  have hbare : ∀ {place}, path.names = [] → tree.locate path = .ok place →
      place = tree.startOf path := by
    intro place hnames hlocate
    obtain ⟨-, -, hfollow⟩ := locate_eq_ok_iff.mp hlocate
    rw [hnames] at hfollow
    exact (Except.ok.inj hfollow).symm
  cases h with
  | bare hnames =>
    cases h' with
    | bare => rfl
    | named hlocate => exact (hbare hnames hlocate).symm
  | named hlocate =>
    cases h' with
    | bare hnames => exact hbare hnames hlocate
    | named hlocate' => exact Except.ok.inj (hlocate.symm.trans hlocate')

/-- A file that can be located is written unless there is a directory. -/
theorem get?_of_write_error {content : ByteArray} {error : FileError}
    (hlocate : tree.locate path = .ok location) (h : tree.write path content = .error error) :
    tree.get? location = some .directory := by
  by_contra hfree
  have hwrite : tree.write path content = .ok _ :=
    write_eq_ok_iff.mpr ⟨location, hlocate, hfree, rfl⟩
  rw [h] at hwrite
  cases hwrite

/-- What lies under a name in a directory when a file is set in a directory. -/
theorem get?_set_concat (tree : FileTree) (name name' : String) (content : ByteArray) :
    (tree.set (location ++ [name]) (.file content)).get? (other ++ [name'])
      = if other = location ∧ name' = name then some (.file content)
        else tree.get? (other ++ [name']) := by
  rw [get?_set tree (by simp)]
  simp

end FileTree

namespace Artifacts

open FileTree (Grows Leads)

/-- A call that writes artifacts. -/
structure Call where
  directory : Path
  html : RawText
  css : RawText

namespace Call

variable {call : Call} {s : Session} {location : Location}

/-- What a call answers, and the session after it. -/
def performed (call : Call) (s : Session) : Except Failure Artifacts × Session :=
  (write call.directory call.html call.css).perform s

/-- The session after a call, whether it succeeds or not. -/
def after (call : Call) (s : Session) : Session := (call.performed s).2

/-- The call does not fail. -/
def Succeeds (call : Call) (s : Session) : Prop := (call.performed s).1.isOk = true

instance (call : Call) (s : Session) : Decidable (call.Succeeds s) :=
  inferInstanceAs (Decidable (_ = true))

/-- The call succeeds, and its path is that of the directory at the location. -/
structure Into (call : Call) (s : Session) (location : Location) : Prop where
  succeeds : call.Succeeds s
  leads : (call.after s).files.Leads call.directory location

/-- The call fails because one of its texts cannot be encoded, and its path is that of the directory
at the location: the file for the text stays empty there. -/
structure Empties (call : Call) (s : Session) (location : Location) : Prop where
  unencodable : (call.performed s).1 = .error .encoding
  leads : (call.after s).files.Leads call.directory location

end Call

/-! ### Artifacts in a tree -/

theorem pageName_ne : pageName ≠ stylesheetName := by decide

/-- The tree with a style sheet in a directory. -/
def styled (tree : FileTree) (location : Location) (sheet : ByteArray) : FileTree :=
  tree.set (location ++ [stylesheetName]) (.file sheet)

/-- The tree with a style sheet and a page in a directory. -/
def paged (tree : FileTree) (location : Location) (sheet page : ByteArray) : FileTree :=
  (styled tree location sheet).set (location ++ [pageName]) (.file page)

section Tree

variable {tree tree' : FileTree} {location other : Location} {sheet page : ByteArray}

theorem get?_styled_page : (styled tree location sheet).get? (other ++ [pageName])
    = tree.get? (other ++ [pageName]) := by
  rw [styled, FileTree.get?_set_concat, if_neg (by simp [pageName_ne])]

theorem get?_styled_sheet : (styled tree location sheet).get? (other ++ [stylesheetName])
    = if other = location then some (.file sheet) else tree.get? (other ++ [stylesheetName]) := by
  rw [styled, FileTree.get?_set_concat]
  simp

theorem get?_paged_page : (paged tree location sheet page).get? (other ++ [pageName])
    = if other = location then some (.file page) else tree.get? (other ++ [pageName]) := by
  rw [paged, FileTree.get?_set_concat, get?_styled_page]
  simp

theorem get?_paged_sheet : (paged tree location sheet page).get? (other ++ [stylesheetName])
    = if other = location then some (.file sheet) else tree.get? (other ++ [stylesheetName]) := by
  rw [paged, FileTree.get?_set_concat, if_neg (by simp [pageName_ne.symm]), get?_styled_sheet]

/-- If a page stands in the directory, so does a style sheet. -/
def Paired (tree : FileTree) (location : Location) : Prop :=
  ∀ page, tree.get? (location ++ [pageName]) = some (.file page) →
    ∃ sheet, tree.get? (location ++ [stylesheetName]) = some (.file sheet)

theorem Paired.grows (h : Paired tree location) (hgrows : Grows tree tree') :
    Paired tree' location := by
  intro page hpage
  have hbefore := hgrows.get?_of_ne (by rw [hpage]; simp)
  obtain ⟨sheet, hsheet⟩ := h page (hbefore.trans hpage)
  exact ⟨sheet, hgrows.get?_eq_some hsheet⟩

theorem Paired.styled (h : Paired tree location) :
    Paired (styled tree other sheet) location := by
  intro page hpage
  rw [get?_styled_page] at hpage
  rw [get?_styled_sheet]
  split
  case isTrue => exact ⟨sheet, rfl⟩
  case isFalse => exact h page hpage

theorem Paired.paged (h : Paired tree location) :
    Paired (paged tree other sheet page) location := by
  intro stored hstored
  rw [get?_paged_page] at hstored
  rw [get?_paged_sheet]
  split at hstored
  case isTrue hother => exact ⟨sheet, if_pos hother⟩
  case isFalse hother =>
    rw [if_neg hother]
    exact h stored hstored

end Tree

/-! ### One call -/

/-- What a call answers, and what it makes of the files. -/
inductive Outcome (call : Call) (tree : FileTree) : Except Failure Artifacts → FileTree → Prop where
  /-- Not even the style sheet is opened, but directories may have been made. -/
  | nothing {made : FileTree} {error : FileError} (hmade : Grows tree made) :
    Outcome call tree (.error (.file error)) made
  /-- The style sheet is left empty, for it cannot be encoded. -/
  | emptySheet {made : FileTree} {location : Location} (hmade : Grows tree made)
    (hleads : (styled made location .empty).Leads call.directory location)
    (hcss : call.css.encode? = none) :
    Outcome call tree (.error .encoding) (styled made location .empty)
  /-- The style sheet is written, and a directory has the name of the page. -/
  | sheetAlone {made : FileTree} {location : Location} {sheet : ByteArray} {error : FileError}
    (hmade : Grows tree made) (hpage : made.get? (location ++ [pageName]) = some .directory) :
    Outcome call tree (.error (.file error)) (styled made location sheet)
  /-- The style sheet is written, and the page is left empty, for it cannot be encoded. -/
  | emptyPage {made : FileTree} {location : Location} {sheet : ByteArray} (hmade : Grows tree made)
    (hleads : (paged made location sheet .empty).Leads call.directory location)
    (hcss : call.css.encode? = some sheet) (hhtml : call.html.encode? = none) :
    Outcome call tree (.error .encoding) (paged made location sheet .empty)
  /-- Both are written. -/
  | whole {made : FileTree} {location : Location} {sheet page : ByteArray} (hmade : Grows tree made)
    (hleads : (paged made location sheet page).Leads call.directory location)
    (hcss : call.css.encode? = some sheet) (hhtml : call.html.encode? = some page) :
    Outcome call tree (.ok (inDirectory call.directory)) (paged made location sheet page)

/-- The names of the artifacts are of one length, so that the page can be located if the style sheet
was written. -/
theorem locate_page {tree tree' : FileTree} {directory : Path} {location : Location}
    {sheet : ByteArray} (hleads : tree.Leads directory location)
    (h : tree.write (directory.child stylesheetName) sheet = .ok tree') :
    tree' = styled tree location sheet
      ∧ tree'.locate (directory.child pageName) = .ok (location ++ [pageName]) := by
  obtain ⟨place, hlocate, hfree, rfl⟩ := FileTree.write_eq_ok_iff.mp h
  have hstylesheet := hleads.locate_child (show stylesheetName ≠ ".." by decide) (by decide)
  have hpage := (hleads.set_file hfree sheet).locate_child (show pageName ≠ ".." by decide)
    (by decide)
  have hsize : pageName.utf8ByteSize = stylesheetName.utf8ByteSize := by decide
  rw [hlocate] at hstylesheet
  rw [Path.utf8ByteSize_text_child directory hsize, hsize] at hpage
  split at hstylesheet
  case isTrue => cases hstylesheet
  case isFalse hshort =>
    rw [if_neg hshort] at hpage
    obtain rfl := Except.ok.inj hstylesheet
    exact ⟨rfl, hpage⟩

/-- A page that is written after its style sheet lies beside it. -/
theorem eq_paged {tree tree' tree'' : FileTree} {directory : Path} {location : Location}
    {sheet page : ByteArray} (hleads : tree.Leads directory location)
    (hsheet : tree.write (directory.child stylesheetName) sheet = .ok tree')
    (hpage : tree'.write (directory.child pageName) page = .ok tree'') :
    tree'' = paged tree location sheet page
      ∧ (paged tree location sheet page).Leads directory location := by
  obtain ⟨rfl, hlocate⟩ := locate_page hleads hsheet
  have hleads' := (hleads.of_write hsheet).of_write hpage
  obtain ⟨place, hplace, -, rfl⟩ := FileTree.write_eq_ok_iff.mp hpage
  obtain rfl : location ++ [pageName] = place := Except.ok.inj (hlocate.symm.trans hplace)
  exact ⟨rfl, hleads'⟩

/-- A call does one of the five things. -/
theorem outcome_performed (call : Call) (s : Session) :
    Outcome call s.files (call.performed s).1 (call.performed s).2.files := by
  rw [Call.performed, write, Action.perform_bind]
  cases hmake : (Action.makeDirectories call.directory).perform s with
  | mk answer made =>
    cases answer with
    | error failure =>
      rw [Action.perform_makeDirectories] at hmake
      obtain ⟨hfailure, rfl⟩ := Prod.mk.inj hmake
      obtain ⟨error, -, rfl⟩ := mapError_eq_error_iff.mp hfailure
      exact .nothing (FileTree.grows_makeDirectories s.files call.directory)
    | ok =>
      obtain ⟨hmake, -⟩ := Action.makeDirectories_of_perform hmake
      have hmade := FileTree.grows_of_makeDirectories hmake
      obtain ⟨location, hleads⟩ := FileTree.exists_leads_of_makeDirectories hmake
      dsimp only
      rw [Action.perform_bind]
      rcases Action.perform_writeFile_cases (call.directory.child stylesheetName) call.css made with
        ⟨error, hperform, -⟩ | ⟨tree, hcss, hsheet, hperform⟩ | ⟨sheet, tree, hcss, hsheet, hperform⟩
      · rw [inDirectory, hperform]
        exact .nothing hmade
      · rw [inDirectory, hperform]
        obtain ⟨rfl, -⟩ := locate_page hleads hsheet
        exact .emptySheet hmade (hleads.of_write hsheet) hcss
      rw [inDirectory, hperform]
      dsimp only
      rw [Action.perform_bind]
      rcases Action.perform_writeFile_cases (call.directory.child pageName) call.html
          { made with files := tree } with
        ⟨error, hperform, herror⟩ | ⟨tree', hhtml, hpage, hperform⟩
          | ⟨page, tree', hhtml, hpage, hperform⟩
      · rw [hperform]
        obtain ⟨rfl, hlocate⟩ := locate_page hleads hsheet
        -- the page can be located, so only a directory can keep it from being written
        have hdirectory := FileTree.get?_of_write_error hlocate (herror .empty)
        rw [get?_styled_page] at hdirectory
        exact .sheetAlone hmade hdirectory
      · rw [hperform]
        obtain ⟨rfl, hleads'⟩ := eq_paged hleads hsheet hpage
        exact .emptyPage hmade hleads' hcss hhtml
      · rw [hperform]
        obtain ⟨rfl, hleads'⟩ := eq_paged hleads hsheet hpage
        exact .whole hmade hleads' hcss hhtml

/-! ### The invariants -/

/-- What stands in a directory, by the last call that has written into it: no page if there was none,
and else both artifacts of that call. -/
def HoldsLast (tree : FileTree) (location : Location) : Option Call → Prop
  | none => ∀ page, tree.get? (location ++ [pageName]) ≠ some (.file page)
  | some call => ∃ page sheet, call.html.encode? = some page ∧ call.css.encode? = some sheet
    ∧ tree.get? (location ++ [pageName]) = some (.file page)
    ∧ tree.get? (location ++ [stylesheetName]) = some (.file sheet)

variable {call : Call} {last : Option Call} {tree tree' : FileTree} {location : Location}
  {answer : Except Failure Artifacts} {failure : Failure} {s : Session} {calls : List Call}

/-- No call leaves a page without a style sheet. -/
theorem Outcome.paired (h : Outcome call tree answer tree') (hpaired : Paired tree location) :
    Paired tree' location := by
  cases h with
  | nothing hmade => exact hpaired.grows hmade
  | emptySheet hmade hleads hcss => exact (hpaired.grows hmade).styled
  | sheetAlone hmade hpage => exact (hpaired.grows hmade).styled
  | emptyPage hmade hleads hcss hhtml => exact (hpaired.grows hmade).paged
  | whole hmade hleads hcss hhtml => exact (hpaired.grows hmade).paged

/-- A call that succeeds leaves both of its artifacts in the directory of its path. -/
theorem Outcome.holdsLast_of_leads (h : Outcome call tree answer tree') (hok : answer.isOk = true)
    (hleads : tree'.Leads call.directory location) : HoldsLast tree' location (some call) := by
  cases h with
  | whole hmade hleads' hcss hhtml =>
    obtain rfl := hleads.unique hleads'
    exact ⟨_, _, hhtml, hcss, by rw [get?_paged_page, if_pos rfl],
      by rw [get?_paged_sheet, if_pos rfl]⟩
  | nothing | emptySheet | sheetAlone | emptyPage => cases hok

/-- In a directory that a call neither writes into nor empties a file of, it changes no page, and a
style sheet only beside a directory of the name of the page. -/
theorem Outcome.unchanged (h : Outcome call tree answer tree')
    (hinto : ¬ (answer.isOk = true ∧ tree'.Leads call.directory location))
    (hempties : ¬ (answer = .error .encoding ∧ tree'.Leads call.directory location)) :
    ∃ made, Grows tree made
      ∧ tree'.get? (location ++ [pageName]) = made.get? (location ++ [pageName])
      ∧ (tree'.get? (location ++ [stylesheetName]) = made.get? (location ++ [stylesheetName])
        ∨ made.get? (location ++ [pageName]) = some .directory) := by
  cases h with
  | nothing hmade => exact ⟨_, hmade, rfl, .inl rfl⟩
  | emptySheet hmade hleads hcss =>
    have hother : location ≠ _ := fun h => hempties ⟨rfl, h ▸ hleads⟩
    exact ⟨_, hmade, get?_styled_page, .inl (by rw [get?_styled_sheet, if_neg hother])⟩
  | @sheetAlone made place sheet error hmade hpage =>
    refine ⟨made, hmade, get?_styled_page, ?_⟩
    by_cases hplace : location = place
    · exact .inr (hplace ▸ hpage)
    · exact .inl (by rw [get?_styled_sheet, if_neg hplace])
  | emptyPage hmade hleads hcss hhtml =>
    have hother : location ≠ _ := fun h => hempties ⟨rfl, h ▸ hleads⟩
    exact ⟨_, hmade, by rw [get?_paged_page, if_neg hother],
      .inl (by rw [get?_paged_sheet, if_neg hother])⟩
  | whole hmade hleads hcss hhtml =>
    have hother : location ≠ _ := fun h => hinto ⟨rfl, h ▸ hleads⟩
    exact ⟨_, hmade, by rw [get?_paged_page, if_neg hother],
      .inl (by rw [get?_paged_sheet, if_neg hother])⟩

/-- One call keeps what stands in a directory that it neither writes into nor empties a file of. -/
theorem Outcome.holdsLast (h : Outcome call tree answer tree')
    (hinto : ¬ (answer.isOk = true ∧ tree'.Leads call.directory location))
    (hempties : ¬ (answer = .error .encoding ∧ tree'.Leads call.directory location))
    (hlast : HoldsLast tree location last) : HoldsLast tree' location last := by
  obtain ⟨made, hmade, hpage, hsheet⟩ := h.unchanged hinto hempties
  cases last with
  | none =>
    intro page hstands
    rw [hpage] at hstands
    have hbefore := hmade.get?_of_ne (by rw [hstands]; simp)
    exact hlast page (hbefore.trans hstands)
  | some earlier =>
    obtain ⟨page, sheet, hhtml, hcss, hpageStands, hsheetStands⟩ := hlast
    have hpageStays := hmade.get?_eq_some hpageStands
    refine ⟨page, sheet, hhtml, hcss, hpage.trans hpageStays, ?_⟩
    rcases hsheet with hsame | hdirectory
    · exact hsame.trans (hmade.get?_eq_some hsheetStands)
    · -- where a page stands there is no directory of its name
      rw [hpageStays] at hdirectory
      cases hdirectory

/-- A call that empties a file leaves the style sheet empty, or the page beside its style sheet. -/
theorem Outcome.emptied (h : Outcome call tree (.error .encoding) tree')
    (hleads : tree'.Leads call.directory location) :
    call.css.encode? = none ∧ tree'.get? (location ++ [stylesheetName]) = some (.file .empty)
      ∨ call.html.encode? = none ∧ tree'.get? (location ++ [pageName]) = some (.file .empty)
        ∧ ∃ sheet, call.css.encode? = some sheet
          ∧ tree'.get? (location ++ [stylesheetName]) = some (.file sheet) := by
  cases h with
  | emptySheet hmade hleads' hcss =>
    obtain rfl := hleads.unique hleads'
    exact .inl ⟨hcss, by rw [get?_styled_sheet, if_pos rfl]⟩
  | emptyPage hmade hleads' hcss hhtml =>
    obtain rfl := hleads.unique hleads'
    exact .inr ⟨hhtml, by rw [get?_paged_page, if_pos rfl], _, hcss,
      by rw [get?_paged_sheet, if_pos rfl]⟩

/-- A call that fails changes nothing that has the name of a page, unless it empties the page because
that cannot be encoded, though the style sheet can. -/
theorem Outcome.get?_page_of_error {entry : Entry} (h : Outcome call tree (.error failure) tree')
    (hentry : tree.get? (location ++ [pageName]) = some entry) :
    tree'.get? (location ++ [pageName]) = some entry
      ∨ failure = .encoding ∧ call.html.encode? = none ∧ call.css.encode? ≠ none
        ∧ tree'.Leads call.directory location := by
  cases h with
  | nothing hmade => exact .inl (hmade.get?_eq_some hentry)
  | emptySheet hmade hleads hcss => exact .inl (get?_styled_page.trans (hmade.get?_eq_some hentry))
  | sheetAlone hmade hpage => exact .inl (get?_styled_page.trans (hmade.get?_eq_some hentry))
  | @emptyPage made place sheet hmade hleads hcss hhtml =>
    by_cases hplace : location = place
    · exact .inr ⟨rfl, hhtml, by simp [hcss], hplace ▸ hleads⟩
    · exact .inl (by rw [get?_paged_page, if_neg hplace, hmade.get?_eq_some hentry])

/-- A call that succeeds has written into some directory. -/
theorem exists_into (h : call.Succeeds s) : ∃ location, call.Into s location := by
  have houtcome := outcome_performed call s
  cases hanswer : (call.performed s).1 with
  | error failure =>
    rw [Call.Succeeds, hanswer] at h
    cases h
  | ok artifacts =>
    rw [hanswer] at houtcome
    generalize htree : (call.performed s).2.files = tree' at houtcome
    cases houtcome with
    | whole hmade hleads hcss hhtml => exact ⟨_, h, by rw [Call.after, htree]; exact hleads⟩

/-! ### Calls in a row -/

/-- The session after calls in a row. -/
def after (s : Session) (calls : List Call) : Session := calls.foldl (fun s call => call.after s) s

theorem after_concat (s : Session) (calls : List Call) (call : Call) :
    after s (calls ++ [call]) = call.after (after s calls) := by
  rw [after, List.foldl_append]
  rfl

/-- The last of the calls in a row that has written into the directory at a location, if any has. -/
inductive LastInto (s : Session) (location : Location) : List Call → Option Call → Prop where
  | never : LastInto s location [] none
  | now {calls : List Call} {call : Call} (h : call.Into (after s calls) location) :
    LastInto s location (calls ++ [call]) (some call)
  | before {calls : List Call} {call : Call} {last : Option Call}
    (h : LastInto s location calls last) (hnot : ¬ call.Into (after s calls) location) :
    LastInto s location (calls ++ [call]) last

/-- Since the last of the calls in a row that has written into the directory at a location, or since
the first one if none has, some call has left a file empty there. -/
inductive EmptiedSince (s : Session) (location : Location) : List Call → Prop where
  | now {calls : List Call} {call : Call} (h : call.Empties (after s calls) location) :
    EmptiedSince s location (calls ++ [call])
  | before {calls : List Call} {call : Call} (h : EmptiedSince s location calls)
    (hnot : ¬ call.Into (after s calls) location) : EmptiedSince s location (calls ++ [call])

theorem exists_lastInto (s : Session) (location : Location) (calls : List Call) :
    ∃ last, LastInto s location calls last := by
  induction calls using List.reverseRecOn with
  | nil => exact ⟨none, .never⟩
  | append_singleton calls call ih =>
    obtain ⟨last, hlast⟩ := ih
    by_cases hinto : call.Into (after s calls) location
    · exact ⟨some call, .now hinto⟩
    · exact ⟨last, .before hlast hinto⟩

/-- Only a text with half of a surrogate pair leaves a file empty. -/
theorem exists_half (h : EmptiedSince s location calls) : ∃ call ∈ calls, ∃ n,
    CodePoint.half n ∈ call.html.points ∨ CodePoint.half n ∈ call.css.points := by
  induction h with
  | @now calls call hempties =>
    have houtcome := outcome_performed call (after s calls)
    rw [hempties.unencodable] at houtcome
    refine ⟨call, List.mem_concat_self, ?_⟩
    rcases houtcome.emptied hempties.leads with ⟨hcss, -⟩ | ⟨hhtml, -⟩
    · obtain ⟨n, hn⟩ := (RawText.encode?_eq_none_iff call.css).mp hcss
      exact ⟨n, .inr hn⟩
    · obtain ⟨n, hn⟩ := (RawText.encode?_eq_none_iff call.html).mp hhtml
      exact ⟨n, .inl hn⟩
  | before h hnot ih =>
    obtain ⟨call, hmem, hhalf⟩ := ih
    exact ⟨call, List.mem_append_left _ hmem, hhalf⟩

/-- No row of calls leaves a page without a style sheet, if there is no file at first. -/
theorem paired_after (hstart : ∀ location content, s.files.get? location ≠ some (.file content))
    (location : Location) (calls : List Call) : Paired (after s calls).files location := by
  induction calls using List.reverseRecOn with
  | nil => exact fun page hpage => absurd hpage (hstart _ page)
  | append_singleton calls call ih =>
    rw [after_concat]
    exact (outcome_performed call (after s calls)).paired ih

/-- What the last call has written into a directory stands there after every row of calls, if there is
no file at first and no file was emptied since. -/
theorem holdsLast_after (hstart : ∀ location content, s.files.get? location ≠ some (.file content))
    (h : LastInto s location calls last) (hnot : ¬ EmptiedSince s location calls) :
    HoldsLast (after s calls).files location last := by
  induction h with
  | never => exact hstart _
  | @now calls call hinto =>
    rw [after_concat]
    exact (outcome_performed call (after s calls)).holdsLast_of_leads hinto.succeeds hinto.leads
  | @before calls call last h hother ih =>
    rw [after_concat]
    refine (outcome_performed call (after s calls)).holdsLast (fun hinto => hother ⟨hinto.1, hinto.2⟩)
      (fun hempties => hnot (.now ⟨hempties.1, hempties.2⟩)) (ih fun hsince => hnot ?_)
    exact .before hsince hother

/-- **A page and its style sheet belong together**, however many calls have written artifacts and
whatever directories they were given.  A page stands only beside a style sheet.  Unless a call has
left a file empty there since, which takes half of a surrogate pair in a text, a page stands only in a
directory that some call has written into, and then the page and the style sheet are those of the last
such call.  A call that succeeds has written into some directory.  One that fails changes nothing that
has the name of a page, unless its page cannot be encoded though its style sheet can: then an empty
page is left beside that style sheet.  A style sheet that cannot be encoded is itself left empty. -/
theorem page_with_stylesheet
    (hstart : ∀ location content, s.files.get? location ≠ some (.file content))
    (calls : List Call) (location : Location) :
    (∀ page, (after s calls).files.get? (location ++ [pageName]) = some (.file page) →
        ∃ sheet, (after s calls).files.get? (location ++ [stylesheetName]) = some (.file sheet))
      ∧ (∀ page, (after s calls).files.get? (location ++ [pageName]) = some (.file page) →
        ¬ EmptiedSince s location calls →
          ∃ call sheet, LastInto s location calls (some call) ∧ call.html.encode? = some page
            ∧ call.css.encode? = some sheet
            ∧ (after s calls).files.get? (location ++ [stylesheetName]) = some (.file sheet))
      ∧ (∀ call, LastInto s location calls (some call) → ¬ EmptiedSince s location calls →
        ∃ page sheet, call.html.encode? = some page ∧ call.css.encode? = some sheet
          ∧ (after s calls).files.get? (location ++ [pageName]) = some (.file page)
          ∧ (after s calls).files.get? (location ++ [stylesheetName]) = some (.file sheet))
      ∧ (EmptiedSince s location calls → ∃ call ∈ calls, ∃ n,
        CodePoint.half n ∈ call.html.points ∨ CodePoint.half n ∈ call.css.points)
      ∧ (∀ call : Call, call.Succeeds (after s calls) → ∃ place, call.Into (after s calls) place)
      ∧ (∀ (call : Call) entry, ¬ call.Succeeds (after s calls) →
        (after s calls).files.get? (location ++ [pageName]) = some entry →
          (after s (calls ++ [call])).files.get? (location ++ [pageName]) = some entry
            ∨ call.html.encode? = none ∧ call.css.encode? ≠ none
              ∧ call.Empties (after s calls) location)
      ∧ ∀ call : Call, call.Empties (after s calls) location →
        call.css.encode? = none
            ∧ (after s (calls ++ [call])).files.get? (location ++ [stylesheetName])
              = some (.file .empty)
          ∨ call.html.encode? = none
            ∧ (after s (calls ++ [call])).files.get? (location ++ [pageName]) = some (.file .empty)
            ∧ ∃ sheet, call.css.encode? = some sheet
              ∧ (after s (calls ++ [call])).files.get? (location ++ [stylesheetName])
                = some (.file sheet) := by
  refine ⟨paired_after hstart location calls, fun page hpage hnot => ?_,
    fun call hlast hnot => holdsLast_after hstart hlast hnot, exists_half,
    fun call hsucceeds => exists_into hsucceeds, fun call entry hfails hentry => ?_,
    fun call hempties => ?_⟩
  · obtain ⟨last, hlast⟩ := exists_lastInto s location calls
    have hholds := holdsLast_after hstart hlast hnot
    cases last with
    | none => exact absurd hpage (hholds page)
    | some call =>
      obtain ⟨written, sheet, hhtml, hcss, hwritten, hsheet⟩ := hholds
      obtain rfl := Entry.file.inj (Option.some.inj (hpage.symm.trans hwritten))
      exact ⟨call, sheet, hlast, hhtml, hcss, hsheet⟩
  · rw [after_concat]
    have houtcome := outcome_performed call (after s calls)
    cases hanswer : (call.performed (after s calls)).1 with
    | ok artifacts => exact absurd (by rw [Call.Succeeds, hanswer]; rfl) hfails
    | error failure =>
      rw [hanswer] at houtcome
      rcases houtcome.get?_page_of_error hentry with hsame | ⟨rfl, hhtml, hcss, hleads⟩
      · exact .inl hsame
      · exact .inr ⟨hhtml, hcss, hanswer, hleads⟩
  · rw [after_concat]
    have houtcome := outcome_performed call (after s calls)
    rw [hempties.unencodable] at houtcome
    exact houtcome.emptied hempties.leads

/-- A session without files. -/
def emptySession : Session := .start .empty [] []

def firstCall : Call := ⟨.ofString "out", "first", "1"⟩

/-- A call whose path runs through the page that the first one leaves. -/
def callThroughPage : Call := ⟨.ofString "out/index.html", "second", "2"⟩

theorem no_file_emptySession (location : Location) (content : ByteArray) :
    emptySession.files.get? location ≠ some (.file content) := by
  intro h
  simp only [emptySession, Session.start, FileTree.empty, FileTree.get?, List.lookup_cons,
    List.lookup_nil] at h
  split at h
  · cases h
  · split at h
    · cases h
    · cases h

/-- The artifacts of the first call stay when the second one fails. -/
theorem page_with_stylesheet_throughPage :
    ¬ callThroughPage.Succeeds (after emptySession [firstCall])
      ∧ LastInto emptySession ["work", "out"] [firstCall, callThroughPage] (some firstCall)
      ∧ (after emptySession [firstCall, callThroughPage]).files.get? ["work", "out", "index.html"]
        = some (.file "first".toUTF8)
      ∧ (after emptySession [firstCall, callThroughPage]).files.get? ["work", "out", "styles.css"]
        = some (.file "1".toUTF8) := by
  have hinto : firstCall.Into emptySession ["work", "out"] :=
    ⟨by decide +kernel, .named rfl rfl⟩
  have hfails : ¬ callThroughPage.Succeeds (after emptySession [firstCall]) := by decide +kernel
  have hfirst : LastInto emptySession ["work", "out"] ([] ++ [firstCall]) (some firstCall) :=
    .now hinto
  have hlast : LastInto emptySession ["work", "out"] ([firstCall] ++ [callThroughPage])
      (some firstCall) := .before hfirst fun h => hfails h.succeeds
  obtain ⟨-, -, hholds, hhalf, -⟩ :=
    page_with_stylesheet no_file_emptySession [firstCall, callThroughPage] ["work", "out"]
  have hnot : ¬ EmptiedSince emptySession ["work", "out"] [firstCall, callThroughPage] := by
    intro h
    obtain ⟨call, hmem, n, hn⟩ := hhalf h
    rcases List.mem_pair.mp hmem with rfl | rfl <;>
      simp [firstCall, callThroughPage, RawText.ofString] at hn
  obtain ⟨page, sheet, hhtml, hcss, hpage, hsheet⟩ := hholds firstCall hlast hnot
  rw [firstCall, RawText.encode?_ofString] at hhtml hcss
  obtain rfl := Option.some.inj hhtml
  obtain rfl := Option.some.inj hcss
  exact ⟨hfails, hlast, hpage, hsheet⟩

/-- A call with a page that cannot be encoded. -/
def unencodableCall : Call := ⟨.ofString "out", ⟨[.half 0]⟩, "2"⟩

/-- A call that fails empties the page of the call before it, and leaves its own style sheet there. -/
theorem page_emptied_by_failure :
    firstCall.Succeeds emptySession
      ∧ (after emptySession [firstCall]).files.get? ["work", "out", "index.html"]
        = some (.file "first".toUTF8)
      ∧ ¬ unencodableCall.Succeeds (after emptySession [firstCall])
      ∧ (after emptySession [firstCall, unencodableCall]).files.get? ["work", "out", "index.html"]
        = some (.file .empty)
      ∧ (after emptySession [firstCall, unencodableCall]).files.get? ["work", "out", "styles.css"]
        = some (.file "2".toUTF8) := by
  refine ⟨by decide +kernel, rfl, by decide +kernel, rfl, rfl⟩

end Artifacts

end FrameExport
