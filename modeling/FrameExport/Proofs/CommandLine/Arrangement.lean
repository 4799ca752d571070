import FrameExport.CommandLine.Arguments
import Mathlib.Data.List.Basic

/-!
# Where the options of a command line stand

A command line is a row of pieces: the operands, which are the key of the design file and perhaps a
directory, and between them, in front of them and behind them the settings, each of which is one
option with what belongs to it.

The settings may stand in any order and anywhere but between the key and the directory: `parse_line`
says what a command line asks for wherever they stand, and that a directory that does not follow the
key at once is refused.

Each piece is read as a whole (`readTokens_line`).  What the settings say does not depend on the
operands around them (`noCache_foldl`, `cachePlace_foldl`), and a run of settings leaves the operands
that have been read, but ends the row of them (`withoutSettings_foldl`).
-/

namespace FrameExport.Arguments

/-! ### Pieces -/

/-- An option with what belongs to it. -/
inductive Setting where
  | noCache
  /-- The name of the directory is an argument of its own … -/
  | cacheDir (name : String)
  /-- … or attached to the option. -/
  | cacheDirAttached (name : String)
deriving DecidableEq, Repr

namespace Setting

/-- The arguments that a setting is given by. -/
def arguments : Setting → List String
  | .noCache => ["--no-cache"]
  | .cacheDir name => ["--cache-dir", name]
  | .cacheDirAttached name => ["--cache-dir=" ++ name]

/-- The directory that a setting names for the cache. -/
def directory? : Setting → Option String
  | .noCache => none
  | .cacheDir name => some name
  | .cacheDirAttached name => some name

/-- What the arguments of a setting are read as. -/
def tokens : Setting → List Token
  | .noCache => [.flag .noCache none]
  | .cacheDir name => [.flag .cacheDir none, .word name]
  | .cacheDirAttached name => [.flag .cacheDir (some name)]

end Setting

/-- An operand or a setting. -/
inductive Piece where
  | operand (text : String)
  | setting (choice : Setting)
deriving DecidableEq, Repr

/-- A text that does not look like an option. -/
def IsPlain (text : String) : Prop := text.toList.head? ≠ some '-'

instance (text : String) : Decidable (IsPlain text) := inferInstanceAs (Decidable (_ ≠ _))

namespace Piece

/-- The arguments that a piece is given by. -/
def arguments : Piece → List String
  | .operand text => [text]
  | .setting choice => choice.arguments

/-- What the arguments of a piece are read as. -/
def tokens : Piece → List Token
  | .operand text => [.word text]
  | .setting choice => choice.tokens

def operand? : Piece → Option String
  | .operand text => some text
  | .setting _ => none

def setting? : Piece → Option Setting
  | .operand _ => none
  | .setting choice => some choice

/-- The name in a piece, if there is one, does not look like an option. -/
def IsPlain : Piece → Prop
  | .operand text => Arguments.IsPlain text
  | .setting choice => ∀ name ∈ choice.directory?, Arguments.IsPlain name

instance (piece : Piece) : Decidable piece.IsPlain :=
  match piece with
  | .operand text => inferInstanceAs (Decidable (Arguments.IsPlain text))
  | .setting choice =>
    inferInstanceAs (Decidable (∀ name ∈ choice.directory?, Arguments.IsPlain name))

end Piece

/-- The operands among the pieces of a command line. -/
def operands (line : List Piece) : List String := line.filterMap Piece.operand?

/-- The settings among the pieces of a command line. -/
def settings (line : List Piece) : List Setting := line.filterMap Piece.setting?

/-- The arguments of a command line. -/
def argumentsOf (line : List Piece) : List String := line.flatMap Piece.arguments

variable {text key : String} {directory : Option String} {line : List Piece} {s : State}

/-! ### Tokens -/

theorem ofArgument_of_isPlain (h : IsPlain text) : Token.ofArgument text = .ok (.word text) := by
  unfold IsPlain at h
  unfold Token.ofArgument
  split
  case h_1 hchars => simp [hchars] at h
  case h_2 hchars => simp [hchars] at h
  case h_3 hchars => simp [hchars] at h
  case h_4 => rfl

theorem ofArgument_attached (name : String) :
    Token.ofArgument ("--cache-dir=" ++ name) = .ok (.flag .cacheDir (some name)) := by
  have hchars : ("--cache-dir=" ++ name).toList
      = ['-', '-', 'c', 'a', 'c', 'h', 'e', '-', 'd', 'i', 'r', '='] ++ name.toList := by
    rw [String.toList_append]
    rfl
  unfold Token.ofArgument
  rw [hchars]
  show Except.ok (Token.flag Flag.cacheDir (some (String.ofList name.toList))) = _
  rw [String.ofList_toList]

/-- An argument in front of the divider is read on its own. -/
theorem ofArguments_cons {token : Token} {rest : List String} {tokens : List Token}
    (h : Token.ofArgument text = .ok token) (hne : token ≠ .divider)
    (hrest : Token.ofArguments rest = .ok tokens) :
    Token.ofArguments (text :: rest) = .ok (token :: tokens) := by
  rw [Token.ofArguments, h]
  cases token with
  | divider => exact absurd rfl hne
  | word text => simp [bind, Except.bind, hrest]; rfl
  | flag flag attached => simp [bind, Except.bind, hrest]; rfl
  | unknown text => simp [bind, Except.bind, hrest]; rfl

/-- The arguments of a command line are read piece by piece. -/
theorem ofArguments_argumentsOf (h : ∀ piece ∈ line, piece.IsPlain) :
    Token.ofArguments (argumentsOf line) = .ok (line.flatMap Piece.tokens) := by
  induction line with
  | nil => rfl
  | cons piece line ih =>
    have hpiece := h piece List.mem_cons_self
    have hline := ih fun p hp => h p (List.mem_cons_of_mem piece hp)
    unfold argumentsOf at hline ⊢
    rw [List.flatMap_cons, List.flatMap_cons]
    cases piece with
    | operand text => exact ofArguments_cons (ofArgument_of_isPlain hpiece) nofun hline
    | setting choice =>
      cases choice with
      | noCache => exact ofArguments_cons rfl nofun hline
      | cacheDir name =>
        exact ofArguments_cons rfl nofun
          (ofArguments_cons (ofArgument_of_isPlain (hpiece name rfl)) nofun hline)
      | cacheDirAttached name => exact ofArguments_cons (ofArgument_attached name) nofun hline

/-! ### Reading pieces -/

/-- The state after a setting. -/
def State.setting (s : State) : Setting → State
  | .noCache => { s.interrupt with noCache := true }
  | .cacheDir name => { s.interrupt with cachePlace := .directory name }
  | .cacheDirAttached name => { s.interrupt with cachePlace := .directory name }

/-- The state after a piece. -/
def State.piece (s : State) : Piece → State
  | .operand text => s.word text
  | .setting choice => s.setting choice

theorem readTokens_line (h : ∀ piece ∈ line, piece.IsPlain) (s : State) :
    readTokens s (line.flatMap Piece.tokens) = .ok (line.foldl State.piece s) := by
  induction line generalizing s with
  | nil => rfl
  | cons piece line ih =>
    have hpiece := h piece List.mem_cons_self
    have hline := ih fun p hp => h p (List.mem_cons_of_mem piece hp)
    rw [List.flatMap_cons, List.foldl_cons, ← hline]
    cases piece with
    | operand text => rfl
    | setting choice =>
      cases choice with
      | noCache => rfl
      | cacheDir name => rfl
      | cacheDirAttached name =>
        have hname : name ≠ "--" := by
          rintro rfl
          exact absurd (hpiece "--" rfl) (by decide)
        show readTokens { s.interrupt with cachePlace := .ofAttached name } _ = _
        rw [CachePlace.ofAttached, if_neg hname]
        rfl

/-! ### What the settings say -/

@[simp] theorem State.interrupt_noCache (s : State) : s.interrupt.noCache = s.noCache := by
  unfold State.interrupt
  split <;> rfl

@[simp] theorem State.interrupt_cachePlace (s : State) : s.interrupt.cachePlace = s.cachePlace := by
  unfold State.interrupt
  split <;> rfl

@[simp] theorem State.word_noCache (s : State) (text : String) :
    (s.word text).noCache = s.noCache := by
  unfold State.word
  split
  · rfl
  · split <;> rfl
  · rfl

@[simp] theorem State.word_cachePlace (s : State) (text : String) :
    (s.word text).cachePlace = s.cachePlace := by
  unfold State.word
  split
  · rfl
  · split <;> rfl
  · rfl

/-- The cache is off as soon as it has been turned off once. -/
theorem noCache_foldl (line : List Piece) (s : State) :
    (line.foldl State.piece s).noCache = (s.noCache || decide (.noCache ∈ settings line)) := by
  induction line generalizing s with
  | nil => simp [settings]
  | cons piece line ih =>
    rw [List.foldl_cons, ih]
    cases piece with
    | operand text => simp [State.piece, settings, Piece.setting?]
    | setting choice =>
      cases choice with
      | noCache => simp [State.piece, State.setting, settings, Piece.setting?]
      | cacheDir name => simp [State.piece, State.setting, settings, Piece.setting?]
      | cacheDirAttached name => simp [State.piece, State.setting, settings, Piece.setting?]

/-- The first name counts only if none follows. -/
theorem elim_getLast?_cons (name : String) (names : List String) (place : CachePlace) :
    (name :: names).getLast?.elim place CachePlace.directory
      = names.getLast?.elim (.directory name) CachePlace.directory := by
  rw [List.getLast?_cons]
  cases names.getLast? with
  | none => rfl
  | some last => rfl

/-- The directory for the cache is the one that is named last. -/
theorem cachePlace_foldl (line : List Piece) (s : State) :
    (line.foldl State.piece s).cachePlace
      = ((settings line).filterMap Setting.directory?).getLast?.elim s.cachePlace .directory := by
  induction line generalizing s with
  | nil => rfl
  | cons piece line ih =>
    rw [List.foldl_cons, ih]
    unfold settings
    cases piece with
    | operand text =>
      rw [State.piece, State.word_cachePlace]
      rfl
    | setting choice =>
      cases choice with
      | noCache =>
        rw [State.piece, State.setting, State.interrupt_cachePlace]
        rfl
      | cacheDir name => exact (elim_getLast?_cons name _ s.cachePlace).symm
      | cacheDirAttached name => exact (elim_getLast?_cons name _ s.cachePlace).symm

/-! ### Which operands are read -/

/-- What has been read of the operands, as if there were no settings. -/
def State.withoutSettings (s : State) : State := { s with noCache := false, cachePlace := .standard }

theorem State.withoutSettings_word (s : State) (text : String) :
    (s.word text).withoutSettings = s.withoutSettings.word text := by
  obtain ⟨stage, key, directory, noCache, cachePlace, extras⟩ := s
  cases stage
  case directory =>
    by_cases htext : text = "--"
    · simp [State.word, State.withoutSettings, htext]
    · simp [State.word, State.withoutSettings, htext]
  all_goals rfl

theorem State.withoutSettings_setting (s : State) (choice : Setting) :
    (s.setting choice).withoutSettings = s.withoutSettings.interrupt := by
  obtain ⟨stage, key, directory, noCache, cachePlace, extras⟩ := s
  cases choice with
  | noCache => cases stage <;> rfl
  | cacheDir name => cases stage <;> rfl
  | cacheDirAttached name => cases stage <;> rfl

theorem State.interrupt_interrupt (s : State) : s.interrupt.interrupt = s.interrupt := by
  obtain ⟨stage, key, directory, noCache, cachePlace, extras⟩ := s
  cases stage <;> rfl

/-- A run of settings leaves what has been read of the operands, but ends the row of them. -/
theorem withoutSettings_foldl (h : operands line = []) (s : State) :
    (line.foldl State.piece s).withoutSettings
      = if line = [] then s.withoutSettings else s.withoutSettings.interrupt := by
  induction line generalizing s with
  | nil => rfl
  | cons piece line ih =>
    cases piece with
    | operand text => simp [operands, Piece.operand?] at h
    | setting choice =>
      have hline : operands line = [] := h
      rw [List.foldl_cons, ih hline, State.piece, State.withoutSettings_setting,
        State.interrupt_interrupt, ite_self, if_neg (List.cons_ne_nil _ _)]

/-- An operand stands behind settings, and before the operands that follow it. -/
theorem exists_of_operands_eq_cons {texts : List String} (h : operands line = text :: texts) :
    ∃ before after, line = before ++ .operand text :: after ∧ operands before = []
      ∧ operands after = texts := by
  induction line with
  | nil => cases h
  | cons piece line ih =>
    cases piece with
    | operand first =>
      obtain ⟨rfl, hline⟩ := List.cons.inj h
      exact ⟨[], line, rfl, rfl, hline⟩
    | setting choice =>
      obtain ⟨before, after, hline, hbefore, hafter⟩ := ih h
      exact ⟨.setting choice :: before, after, congrArg _ hline, hbefore, hafter⟩

/-- Nothing stands between the key and the directory, if there is one. -/
def Together (key : String) (directory : Option String) (line : List Piece) : Prop :=
  ∀ name, directory = some name → [.operand key, .operand name] <:+: line

theorem operands_append (line line' : List Piece) :
    operands (line ++ line') = operands line ++ operands line' := List.filterMap_append

@[simp] theorem operands_nil : operands [] = [] := rfl

@[simp] theorem operands_cons_operand (text : String) (line : List Piece) :
    operands (.operand text :: line) = text :: operands line := rfl

/-- The settings in front of the first operand can be told from what follows. -/
theorem eq_of_append_operand_eq {text' : String} {before before' after after' : List Piece}
    (h : operands before = []) (h' : operands before' = [])
    (heq : before ++ .operand text :: after = before' ++ .operand text' :: after') :
    before = before' ∧ after = after' := by
  induction before generalizing before' with
  | nil =>
    cases before' with
    | nil => exact ⟨rfl, (List.cons.inj heq).2⟩
    | cons piece before' =>
      obtain ⟨rfl, -⟩ := List.cons.inj heq
      cases h'
  | cons piece before ih =>
    cases before' with
    | nil =>
      obtain ⟨rfl, -⟩ := List.cons.inj heq
      cases h
    | cons piece' before' =>
      obtain ⟨rfl, hrest⟩ := List.cons.inj heq
      cases piece with
      | operand first => cases h
      | setting choice =>
        have hsettings : operands before' = [] := h'
        obtain ⟨rfl, hafter⟩ := ih h hsettings hrest
        exact ⟨rfl, hafter⟩

/-- The key and the directory stand together exactly if there are no settings between them. -/
theorem together_some_iff {name : String} {before between after : List Piece}
    (hbefore : operands before = []) (hbetween : operands between = [])
    (hafter : operands after = []) :
    Together key (some name) (before ++ .operand key :: (between ++ .operand name :: after))
      ↔ between = [] := by
  constructor
  · intro h
    obtain ⟨front, back, hline⟩ := h name rfl
    have htexts := congrArg (fun line => (operands line).length) hline
    simp only [operands_append, operands_cons_operand, operands_nil, List.length_append,
      List.length_cons, List.length_nil, hbefore, hbetween, hafter] at htexts
    have hfront : operands front = [] := List.eq_nil_of_length_eq_zero (by omega)
    rw [List.append_assoc] at hline
    obtain ⟨-, hrest⟩ := eq_of_append_operand_eq hfront hbefore hline
    obtain ⟨hnone, -⟩ := eq_of_append_operand_eq operands_nil hbetween hrest
    exact hnone.symm
  · rintro rfl name' ⟨⟩
    exact ⟨before, after, by simp⟩

/-- The operands that have been read when the key has been. -/
theorem withoutSettings_key {before : List Piece} (h : operands before = []) (key : String) :
    ((before ++ [Piece.operand key]).foldl State.piece .start).withoutSettings
      = State.start.word key := by
  rw [List.foldl_append]
  show ((before.foldl State.piece .start).word key).withoutSettings = _
  rw [State.withoutSettings_word, withoutSettings_foldl h]
  split <;> rfl

/-- Settings behind the last operand leave what has been read. -/
theorem reads_of_operands_eq_nil {t : State} (h : operands line = []) (ht : s.withoutSettings = t) :
    (line.foldl State.piece s).key = t.key ∧ (line.foldl State.piece s).directory = t.directory
      ∧ (line.foldl State.piece s).extras = t.extras := by
  have hlast := withoutSettings_foldl h s
  have hinterrupt : t.interrupt.key = t.key ∧ t.interrupt.directory = t.directory
      ∧ t.interrupt.extras = t.extras := by
    unfold State.interrupt
    split
    · exact ⟨rfl, rfl, rfl⟩
    · exact ⟨rfl, rfl, rfl⟩
  generalize line.foldl State.piece s = last at hlast ⊢
  show last.withoutSettings.key = _ ∧ last.withoutSettings.directory = _
    ∧ last.withoutSettings.extras = _
  rw [hlast, ht]
  split
  · exact ⟨rfl, rfl, rfl⟩
  · exact hinterrupt

/-- What is read of the operands. -/
theorem reads_operands (hplain : ∀ piece ∈ line, piece.IsPlain)
    (h : operands line = key :: directory.toList) :
    (line.foldl State.piece .start).key = some key
      ∧ (Together key directory line → (line.foldl State.piece .start).extras = []
        ∧ (line.foldl State.piece .start).directory = directory.getD Export.standardDirectory)
      ∧ (¬ Together key directory line
        → (line.foldl State.piece .start).extras = directory.toList) := by
  obtain ⟨before, after, rfl, hbefore, hafter⟩ := exists_of_operands_eq_cons h
  have hkey := withoutSettings_key hbefore key
  cases directory with
  | none =>
    obtain ⟨hread, hdirectory, hextras⟩ := reads_of_operands_eq_nil hafter hkey
    rw [List.append_cons, List.foldl_append]
    exact ⟨hread, fun _ => ⟨hextras, hdirectory⟩, fun hapart => absurd nofun hapart⟩
  | some name =>
    obtain ⟨between, after, rfl, hbetween, hafter⟩ := exists_of_operands_eq_cons hafter
    have hname : name ≠ "--" := by
      rintro rfl
      have hdivider : IsPlain "--" := hplain (.operand "--") (by simp)
      exact absurd hdivider (by decide)
    have hword : ((between.foldl State.piece
        ((before ++ [Piece.operand key]).foldl State.piece .start)).word name).withoutSettings
          = (if between = [] then State.start.word key else (State.start.word key).interrupt).word
            name := by
      rw [State.withoutSettings_word, withoutSettings_foldl hbetween, hkey]
    obtain ⟨hread, hdirectory, hextras⟩ := reads_of_operands_eq_nil hafter hword
    -- settings between the two end the row of operands, and the directory comes too late
    rw [together_some_iff hbefore hbetween hafter, List.append_cons, List.foldl_append,
      List.foldl_append, List.foldl_cons, State.piece, hread, hdirectory, hextras]
    split
    case isTrue hnone =>
      have hstate : (State.start.word key).word name
          = ⟨.divider, some key, name, false, .standard, []⟩ := if_neg hname
      rw [hstate]
      exact ⟨rfl, fun _ => ⟨rfl, rfl⟩, fun hsome => absurd hnone hsome⟩
    case isFalse hsome => exact ⟨rfl, fun hnone => absurd hnone hsome, fun _ => rfl⟩

/-- What a command line asks for can be read off the last state. -/
theorem parse_argumentsOf (hplain : ∀ piece ∈ line, piece.IsPlain)
    (hkey : (line.foldl State.piece .start).key = some key) :
    parse (argumentsOf line) = if (line.foldl State.piece .start).extras.isEmpty then
        .ok ⟨key, (line.foldl State.piece .start).directory,
          decide (.noCache ∈ settings line),
          ((settings line).filterMap Setting.directory?).getLast?.elim .standard .directory⟩
      else .error (.unrecognized (line.foldl State.piece .start).extras) := by
  have hnoCache : _ = decide (.noCache ∈ settings line) := noCache_foldl line .start
  have hplace := cachePlace_foldl line .start
  simp only [parse, ofArguments_argumentsOf hplain, Except.mapError, bind, Except.bind,
    readTokens_line hplain, hkey, hnoCache, hplace]
  rfl

/-- **What a command line asks for.**  The settings may stand in any order, and anywhere but between
the key and the directory.  There a command line asks for the key, the directory that follows it or
else the standard one, no cache if this is said anywhere, and the directory for the cache that is
named last.  A directory that does not follow the key at once is refused. -/
theorem parse_line (hplain : ∀ piece ∈ line, piece.IsPlain)
    (hoperands : operands line = key :: directory.toList) :
    (Together key directory line → parse (argumentsOf line) = .ok
        { key := key
          directory := directory.getD Export.standardDirectory
          noCache := decide (.noCache ∈ settings line)
          cachePlace := ((settings line).filterMap Setting.directory?).getLast?.elim .standard
            .directory })
      ∧ (¬ Together key directory line →
        parse (argumentsOf line) = .error (.unrecognized directory.toList)) := by
  obtain ⟨hkey, htogether, hapart⟩ := reads_operands hplain hoperands
  rw [parse_argumentsOf hplain hkey]
  constructor
  · intro h
    obtain ⟨hextras, hdirectory⟩ := htogether h
    rw [hextras, hdirectory]
    rfl
  · intro h
    rw [hapart h]
    -- only a directory can stand apart
    cases directory with
    | none => exact absurd nofun h
    | some name => rfl

/-- Options in front of the key and behind the directory. -/
def optionsAround : List Piece :=
  [.setting (.cacheDirAttached "a=b"), .operand "KEY", .operand "out", .setting .noCache,
    .setting (.cacheDir "kept")]

theorem parse_optionsAround :
    (∀ piece ∈ optionsAround, piece.IsPlain) ∧ operands optionsAround = ["KEY", "out"]
      ∧ parse ["--cache-dir=a=b", "KEY", "out", "--no-cache", "--cache-dir", "kept"]
        = .ok ⟨"KEY", "out", true, .directory "kept"⟩ := by
  have hplain : ∀ piece ∈ optionsAround, piece.IsPlain := by decide
  have hoperands : operands optionsAround = "KEY" :: (some "out").toList := rfl
  have htogether : Together "KEY" (some "out") optionsAround := by
    rintro name ⟨⟩
    exact ⟨[.setting (.cacheDirAttached "a=b")], [.setting .noCache, .setting (.cacheDir "kept")], rfl⟩
  exact ⟨hplain, hoperands, (parse_line hplain hoperands).1 htogether⟩

/-- An option between the key and the directory. -/
def optionBetween : List Piece := [.operand "KEY", .setting .noCache, .operand "out"]

/-- The option is followed behind the directory, but in front of it the directory is refused. -/
theorem parse_optionBetween :
    (∀ piece ∈ optionBetween, piece.IsPlain) ∧ operands optionBetween = ["KEY", "out"]
      ∧ argumentsOf optionBetween = ["KEY", "--no-cache", "out"]
      ∧ parse ["KEY", "out", "--no-cache"] = .ok ⟨"KEY", "out", true, .standard⟩
      ∧ parse ["KEY", "--no-cache", "out"] = .error (.unrecognized ["out"]) := by
  refine ⟨by decide, rfl, rfl, ?_, ?_⟩
  · rfl
  · rfl

end FrameExport.Arguments
