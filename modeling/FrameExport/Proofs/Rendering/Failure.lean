import FrameExport.CommandLine.Run
import FrameExport.Gateway.Basic
import FrameExport.Proofs.MainFrame
import FrameExport.Proofs.Rendering.Emission
import FrameExport.Proofs.Session

/-!
# How rendering fails

A file that cannot be rendered for its structure is refused.  `ofJson_fault_iff` says when rendering
fails in another way: the members of the first page are given by a truth value or a number, which
cannot be walked through, or a node of the frame holds a value that is not usable.  The first is a
fault of the kind, the second one of a number.

These faults are not handled further on: the gateway answers them with the status 500 instead of
422, and the program is left with them instead of telling them in a line.
-/

namespace FrameExport

/-- The fault is about the size of a number: there is no nearest integer, or no nearest double. -/
def Fault.IsNumeric (fault : Fault) : Prop :=
  fault = .notANumber ∨ fault = .infinite ∨ fault = .tooLarge

/-! ### Faults of numbers -/

theorem Double.failsOnly_floor (x : Double) : FailsOnly Fault.IsNumeric x.floor := by
  cases x with
  | nan => exact failsOnly_error (Or.inl rfl)
  | infinite s => exact failsOnly_error (Or.inr (Or.inl rfl))
  | finite s r => exact failsOnly_ok _

namespace Paint

theorem failsOnly_doubleOfInt (n : Int) : FailsOnly Fault.IsNumeric (Json.doubleOfInt n) := by
  rw [doubleOfInt_eq]
  beta_reduce
  generalize Double.ofInt? n = x
  cases x with
  | none => exact failsOnly_error (Or.inr (Or.inr rfl))
  | some a => exact failsOnly_ok _

theorem failsOnly_toDouble? (v : Json) : FailsOnly Fault.IsNumeric v.toDouble? := by
  cases v with
  | int n =>
    rw [Json.toDouble?]
    exact (failsOnly_doubleOfInt n).map some
  | _ => exact failsOnly_ok _

theorem failsOnly_channel (v : Json) : FailsOnly Fault.IsNumeric (channel v) :=
  (failsOnly_toDouble? v).bind fun _ => Double.failsOnly_floor _

theorem failsOnly_alpha (own inColor : Json) : FailsOnly Fault.IsNumeric (alpha own inColor) := by
  refine (failsOnly_toDouble? own).bind fun x => ?_
  cases x with
  | some a => exact failsOnly_pure _
  | none => exact (failsOnly_toDouble? inColor).bind fun _ => failsOnly_pure _

theorem failsOnly_solid (color : Fields) (opacity : Json) :
    FailsOnly Fault.IsNumeric (solid color opacity) :=
  (failsOnly_alpha _ _).bind fun _ => (failsOnly_channel _).bind fun _ =>
    (failsOnly_channel _).bind fun _ => (failsOnly_channel _).bind fun _ => failsOnly_pure _

theorem failsOnly_color (paint : Json) : FailsOnly Fault.IsNumeric (color paint) := by
  unfold color
  split
  · split
    · exact failsOnly_solid _ _
    · exact failsOnly_ok _
  · exact failsOnly_ok _

theorem failsOnly_stop (fields : Fields) : FailsOnly Fault.IsNumeric (stop fields) :=
  (failsOnly_solid _ _).bind fun _ => (failsOnly_toDouble? _).bind fun _ =>
    (Double.failsOnly_floor _).bind fun _ => failsOnly_pure _

theorem failsOnly_gradient (paint : Json) : FailsOnly Fault.IsNumeric (gradient paint) := by
  unfold gradient
  split
  · exact failsOnly_ok _
  · split
    · exact (failsOnly_mapM fun _ _ => failsOnly_stop _).bind fun _ => failsOnly_pure _
    · exact failsOnly_ok _

end Paint

namespace Stylesheet

theorem failsOnly_fillDeclaration (paint : Json) :
    FailsOnly Fault.IsNumeric (fillDeclaration paint) := by
  refine (Paint.failsOnly_gradient paint).bind fun g => ?_
  cases g with
  | some gradient => exact failsOnly_pure _
  | none => exact (Paint.failsOnly_color paint).bind fun _ => failsOnly_pure _

theorem failsOnly_strokeDeclaration (paint weight : Json) :
    FailsOnly Fault.IsNumeric (strokeDeclaration paint weight) :=
  (Paint.failsOnly_color paint).bind fun _ => failsOnly_pure _

theorem failsOnly_ofForest (forest : List (Tree Node)) :
    FailsOnly Fault.IsNumeric (ofRegistry (.ofForest forest)) := by
  refine (failsOnly_mapM fun entry hentry => ?_).bind fun _ =>
    (failsOnly_mapM fun _ _ => (failsOnly_fillDeclaration _).bind fun _ => failsOnly_pure _).bind
      fun _ => (failsOnly_mapM fun _ _ => (failsOnly_strokeDeclaration _ _).bind fun _ =>
        failsOnly_pure _).bind fun _ => failsOnly_pure _
  obtain ⟨rule, hrule⟩ := returns_textRule hentry
  rw [hrule]
  exact failsOnly_ok _

end Stylesheet

/-! ### Faults of the structure -/

/-- A value that cannot be walked through: a truth value or a number, unless it is false or zero. -/
def Json.Unwalkable (v : Json) : Prop :=
  v = .bool true ∨ (∃ n, v = .int n ∧ n ≠ 0) ∨ ∃ x, v = .double x ∧ x.isZero = false

theorem Json.walk_eq_error_iff {v : Json} {fault : Fault} :
    v.walk = .error fault ↔ fault = .notWalked v.kind ∧ v.Unwalkable := by
  have hcomm := eq_comm (a := Fault.notWalked v.kind) (b := fault)
  unfold walk Unwalkable
  cases v with
  | null => simp [isTruthy]
  | bool b => cases b <;> simp [isTruthy, hcomm]
  | int n => by_cases hn : n = 0 <;> simp [isTruthy, hn, hcomm]
  | double x => cases hx : x.isZero <;> simp [isTruthy, hx, hcomm]
  | str s => by_cases hs : s = "" <;> simp [isTruthy, hs]
  | arr items => cases items <;> simp [isTruthy]
  | obj fields => cases fields <;> simp [isTruthy]

namespace DesignFile

variable {file : Json} {document : Fields} {fault : Fault}

/-- A file that is read has a first page whose members are given by a value of a kind that cannot be
walked through. -/
def PageUnwalkable (file : Json) (kind : ValueKind) : Prop :=
  ∃ (fields document : Fields) (page : Json) (pages : List Json), file = .obj fields
    ∧ fields.get "document" = .obj document
    ∧ (fields.get "name" = .null ∨ ∃ name, fields.get "name" = .str name)
    ∧ document.get "children" = .arr (page :: pages)
    ∧ (page.fieldsOrEmpty.get "children").Unwalkable
    ∧ (page.fieldsOrEmpty.get "children").kind = kind

/-- The search for the frame faults exactly if the members of the first page cannot be walked
through; a page that is no object has none. -/
theorem mainFrame_eq_fault_iff :
    mainFrame document = .error (.fault fault) ↔ ∃ page pages,
      document.get "children" = .arr (page :: pages)
        ∧ (page.fieldsOrEmpty.get "children").Unwalkable
        ∧ fault = .notWalked (page.fieldsOrEmpty.get "children").kind := by
  unfold mainFrame
  cases hchildren : document.get "children" with
  | arr items =>
    cases items with
    | nil => simp
    | cons page pages =>
      constructor
      · intro h
        cases hwalk : (page.fieldsOrEmpty.get "children").walk with
        | error f =>
          simp only [hwalk] at h
          obtain rfl := DesignError.fault.inj (Except.error.inj h)
          obtain ⟨hkind, hunwalkable⟩ := Json.walk_eq_error_iff.mp hwalk
          exact ⟨page, pages, rfl, hunwalkable, hkind⟩
        | ok members =>
          simp only [hwalk] at h
          -- the search ends with a frame or with a wrong structure
          cases hfind : members.find? isMainFrame <;> simp [hfind] at h
      · rintro ⟨page', pages', heq, hunwalkable, rfl⟩
        cases heq
        simp only [Json.walk_eq_error_iff.mpr ⟨rfl, hunwalkable⟩]
  | _ => simp

theorem frame_eq_fault_iff {file : DesignFile} :
    file.frame = .error (.fault fault) ↔ mainFrame file.document = .error (.fault fault) := by
  rw [frame, bind_eq_error_iff]
  constructor
  · rintro (h | ⟨v, -, h⟩)
    · exact h
    · obtain ⟨e, -, he⟩ := mapError_eq_error_iff.mp h
      cases he
  · exact Or.inl

/-- A file has no placed frame for a fault, and not for its structure, exactly if the members of its
first page cannot be walked through. -/
theorem rootIn_eq_fault_iff :
    rootIn file = .error (.fault fault)
      ↔ ∃ kind, fault = .notWalked kind ∧ PageUnwalkable file kind := by
  have hframe : rootIn file = .error (.fault fault)
      ↔ ∃ design, read file = .ok design ∧ mainFrame design.document = .error (.fault fault) := by
    rw [rootIn, bind_eq_error_iff]
    constructor
    · rintro (h | ⟨design, hdesign, h⟩)
      -- a file that cannot be read is refused for its structure
      · obtain ⟨e, -, he⟩ := mapError_eq_error_iff.mp h
        cases he
      · rcases bind_eq_error_iff.mp h with hfault | ⟨tree, -, htree⟩
        · exact ⟨design, mapError_eq_ok_iff.mp hdesign, frame_eq_fault_iff.mp hfault⟩
        · cases htree
    · rintro ⟨design, hdesign, h⟩
      exact Or.inr ⟨design, mapError_eq_ok_iff.mpr hdesign,
        bind_eq_error_iff.mpr (Or.inl (frame_eq_fault_iff.mpr h))⟩
  rw [hframe]
  constructor
  · rintro ⟨⟨name, document⟩, hread, h⟩
    obtain ⟨page, pages, hpages, hwalk, hfault⟩ := mainFrame_eq_fault_iff.mp h
    obtain ⟨fields, hfile, hdocument, hname⟩ := exists_read_iff.mp ⟨name, hread⟩
    exact ⟨_, hfault, fields, document, page, pages, hfile, hdocument, hname, hpages, hwalk, rfl⟩
  · rintro ⟨kind, rfl, fields, document, page, pages, hfile, hdocument, hname, hpages, hwalk, rfl⟩
    obtain ⟨name, hread⟩ := exists_read_iff.mpr ⟨fields, hfile, hdocument, hname⟩
    exact ⟨⟨name, document⟩, hread, mainFrame_eq_fault_iff.mpr ⟨page, pages, hpages, hwalk, rfl⟩⟩

end DesignFile

namespace Rendering

variable {root : Tree Node} {file : Json} {fault : Fault}

/-! ### Rendering -/

theorem returns_ofRoot_iff : Returns (ofRoot root) ↔ ∀ n ∈ root.preorder, n.Usable := by
  rw [ofRoot, ← Tree.preorderAll_singleton, ← Stylesheet.returns_ofForest_iff, returns_bind_iff]
  constructor
  · rintro ⟨sheet, hsheet, -⟩
    exact ⟨sheet, hsheet⟩
  · rintro ⟨sheet, hsheet⟩
    have husable := Stylesheet.returns_ofForest_iff.mp ⟨sheet, hsheet⟩
    exact ⟨sheet, hsheet, (returns_bind_of_returns fun _ => returns_pure _).mpr
      (Page.returns_ofForest _ _ husable)⟩

/-- A placed frame that cannot be rendered fails on a number. -/
theorem failsOnly_ofRoot : FailsOnly Fault.IsNumeric (ofRoot root) := by
  intro fault h
  rcases bind_eq_error_iff.mp h with hsheet | ⟨sheet, hsheet, hrest⟩
  · exact Stylesheet.failsOnly_ofForest _ fault hsheet
  · -- the page does not fail where the style sheet was made
    have husable := Stylesheet.returns_ofForest_iff.mp ⟨sheet, hsheet⟩
    rcases bind_eq_error_iff.mp hrest with hpage | ⟨page, -, hend⟩
    · obtain ⟨page, hok⟩ := Page.returns_ofForest Page.defaultTitle (.ofForest [root]) husable
      rw [hok] at hpage
      cases hpage
    · cases hend

/-- The file is not rendered, and not for its structure. -/
def Faults (file : Json) : Prop := ∃ fault, ofJson file = .error (.fault fault)

instance (file : Json) : Decidable (Faults file) :=
  match h : ofJson file with
  | .error (.fault fault) => isTrue ⟨fault, h⟩
  | .error (.structural e) => isFalse fun ⟨_, hfault⟩ => by
    rw [h] at hfault
    cases hfault
  | .ok rendering => isFalse fun ⟨_, hfault⟩ => by
    rw [h] at hfault
    cases hfault

/-- Whether a computation gives an object that faults when it is rendered. -/
def givesFaulty {ε : Type} (x : Except ε Json) : Bool :=
  match x with
  | .ok (.obj fields) => decide (Faults (.obj fields))
  | _ => false

theorem exists_of_givesFaulty {ε : Type} {x : Except ε Json} (h : givesFaulty x = true) :
    ∃ fields, x = .ok (.obj fields) ∧ Faults (.obj fields) := by
  unfold givesFaulty at h
  split at h
  · rename_i fields
    exact ⟨fields, rfl, of_decide_eq_true h⟩
  · cases h

theorem ofJson_eq_fault_iff :
    ofJson file = .error (.fault fault) ↔ DesignFile.rootIn file = .error (.fault fault)
      ∨ ∃ root, DesignFile.rootIn file = .ok root ∧ ofRoot root = .error fault := by
  rw [ofJson, bind_eq_error_iff]
  refine or_congr_right (exists_congr fun root => and_congr_right fun _ => ?_)
  rw [mapError_eq_error_iff]
  simp

/-- A value of a node in the frame of the file cannot be used. -/
def NodeUnusable (file : Json) : Prop :=
  ∃ root, DesignFile.rootIn file = .ok root ∧ ∃ n ∈ root.preorder, ¬ n.Usable

theorem ofRoot_fails_iff (root : Tree Node) :
    (∃ fault, ofRoot root = .error fault) ↔ ∃ n ∈ root.preorder, ¬ n.Usable := by
  rw [← not_returns_iff, returns_ofRoot_iff]
  simp only [not_forall, exists_prop]

theorem faults_iff :
    Faults file ↔ (∃ kind, DesignFile.PageUnwalkable file kind) ∨ NodeUnusable file := by
  unfold Faults NodeUnusable
  constructor
  · rintro ⟨fault, h⟩
    rcases ofJson_eq_fault_iff.mp h with hpage | ⟨root, hok, hfault⟩
    · obtain ⟨kind, -, hkind⟩ := DesignFile.rootIn_eq_fault_iff.mp hpage
      exact Or.inl ⟨kind, hkind⟩
    · exact Or.inr ⟨root, hok, (ofRoot_fails_iff root).mp ⟨fault, hfault⟩⟩
  · rintro (⟨kind, hpage⟩ | ⟨root, hok, hn⟩)
    · exact ⟨_, ofJson_eq_fault_iff.mpr
        (Or.inl (DesignFile.rootIn_eq_fault_iff.mpr ⟨kind, rfl, hpage⟩))⟩
    · obtain ⟨fault, hfault⟩ := (ofRoot_fails_iff root).mpr hn
      exact ⟨fault, ofJson_eq_fault_iff.mpr (Or.inr ⟨root, hok, hfault⟩)⟩

/-- A fault of the kind comes from the first page, and a fault of a number from a node. -/
theorem fault_of_ofJson (h : ofJson file = .error (.fault fault)) :
    (∃ kind, fault = .notWalked kind ∧ DesignFile.PageUnwalkable file kind)
      ∨ fault.IsNumeric ∧ NodeUnusable file := by
  rcases ofJson_eq_fault_iff.mp h with hpage | ⟨root, hok, hfault⟩
  · exact Or.inl (DesignFile.rootIn_eq_fault_iff.mp hpage)
  · exact Or.inr ⟨failsOnly_ofRoot fault hfault, root, hok, (ofRoot_fails_iff root).mp ⟨fault, hfault⟩⟩

end Rendering

namespace Gateway

variable {fields : Fields}

/-- A file is answered with the page and the style sheet, with what is wrong with its structure, or,
if it faults, with an internal error. -/
theorem status_renderResponse (fields : Fields) :
    ((renderResponse (.obj fields)).sendable.status = 500 ↔ Rendering.Faults (.obj fields))
      ∧ (¬ Rendering.Faults (.obj fields) → (renderResponse (.obj fields)).sendable.status = 200
        ∨ (renderResponse (.obj fields)).sendable.status = 422) := by
  unfold Rendering.Faults renderResponse
  cases h : Rendering.ofJson (.obj fields) with
  | ok rendering => simp [Response.object, Response.sendable, Json.isFinite, Json.fieldsFinite]
  | error e =>
    cases e with
    | structural e => simp [Response.refusal, Response.sendable, Json.isFinite, Json.fieldsFinite]
    | fault f => simp [Response.internalError, Response.sendable]

/-- A request to render a file gets the response to the file. -/
theorem serve_render {queue : Queue} {request : Request}
    (hroute : Route.find? request.address = some .render)
    (hmethod : request.method.map Char.toUpper = "POST")
    (hbody : readBody request.body = .ok (.obj fields)) :
    (serve queue request).1 = (renderResponse (.obj fields)).sendable := by
  delta serve
  simp only [hroute, hmethod]
  rw [if_pos (by decide)]
  simp only [answer, hbody]

end Gateway

/-! ### The program -/

/-- A session in which a run has just begun. -/
def Session.begun (session : Session) : Session :=
  { session with journal := session.journal ++ [.exportStarted] }

theorem Rendering.perform_run (file : Json) (session : Session) :
    (Rendering.run file).perform session = ((Rendering.ofJson file).mapError .design,
      { session with journal := session.journal ++ Rendering.events file }) := rfl

/-- What an export does after the rendering fails only because of the files. -/
theorem Export.failsOnly_finish {P : Failure → Prop} (hP : ∀ e, P (.file e)) (directory : Path)
    (rendering : Rendering) : Action.FailsOnly P (do
      let artifacts ← Artifacts.write directory rendering.html rendering.css
      Action.report [.exportDone]
      return (⟨artifacts, rendering.registry.summary⟩ : Export)) :=
  (Artifacts.failsOnly_write hP _ _ _).bind fun _ =>
    (Action.failsOnly_modify _).bind fun _ => Action.failsOnly_pure _

/-- An export whose file is given fails on the design exactly as rendering the file does; what is
written afterwards fails only because of the files. -/
theorem Export.run_eq_design_iff {fetch : Action Json} {directory : Path} {file : Json}
    {session session' : Session} {e : DesignError}
    (hfetch : fetch.perform session.begun = (.ok file, session')) :
    ((Export.run fetch directory).perform session).1 = .error (.design e)
      ↔ Rendering.ofJson file = .error e := by
  have hreport : (Action.report [.exportStarted]).perform session = (.ok (), session.begun) := rfl
  rw [Export.run, Action.perform_bind_of_ok hreport, Action.perform_bind_of_ok hfetch,
    Action.perform_bind, Rendering.perform_run]
  cases hjson : Rendering.ofJson file with
  | error e' => simp [Except.mapError]
  | ok rendering =>
    simp only [Except.mapError, reduceCtorEq, iff_false]
    -- once the page is there, only the files can keep the export from its end
    have hfinish := Export.failsOnly_finish (P := fun failure => ∀ e, failure ≠ .design e)
      (fun e e' => by simp) directory rendering
    exact fun h => hfinish _ _ h e rfl

namespace CommandLine

/-- The program is left with the failure on a file that was given to it exactly if the file faults.
What is wrong with the structure of a file is told in a line. -/
theorem exportAction_eq_design_iff {token : Option String} {arguments : Arguments}
    {cache : Option DocumentCache} {file : Json} {session session' : Session}
    (hcache : cacheOf arguments = .ok cache)
    (hfetch : (Export.source (.standard token) cache arguments.key).perform session.begun
      = (.ok file, session')) :
    (∃ e, ((exportAction token arguments).perform session).1 = .error (.design e))
      ↔ Rendering.Faults file := by
  -- what the export comes to is given to the handlers as an answer
  have hstart : (Action.ofExcept ((cacheOf arguments).mapError .value)).perform session
      = (.ok cache, session) := by rw [hcache]; rfl
  cases hanswer : (Export.run (Export.source (.standard token) cache arguments.key)
      (.ofString arguments.directory)).perform session with
  | mk answer last =>
    have hattempt : (Action.attempt (Export.run (Export.source (.standard token) cache
        arguments.key) (.ofString arguments.directory))).perform session = (.ok answer, last) := by
      rw [Action.perform_attempt, hanswer]
    have hfaults : Rendering.Faults file
        ↔ ∃ fault, answer = .error (.design (.fault fault)) := by
      refine exists_congr fun fault => ?_
      rw [← Export.run_eq_design_iff hfetch, hanswer]
    rw [exportAction, Action.perform_bind_of_ok hstart, Action.perform_bind_of_ok hattempt, hfaults]
    -- an outcome that is told is no failure
    have hanswered : ∀ outcome : Outcome,
        ¬ ∃ e, ((pure outcome : Action Outcome).perform last).1 = .error (.design e) := by
      rintro outcome ⟨e, h⟩
      rw [Action.perform_pure] at h
      cases h
    -- what is not told is the failure of the program
    have hfailed : ∀ failure : Failure, (∀ e, failure ≠ .design e) →
        ¬ ∃ e, ((Action.fail failure : Action Outcome).perform last).1 = .error (.design e) := by
      rintro failure hfailure ⟨e, h⟩
      rw [Action.perform_fail] at h
      exact hfailure e (Except.error.inj h)
    cases answer with
    | ok result => exact iff_of_false (hanswered _) (by simp)
    | error failure =>
      cases failure with
      | service e => exact iff_of_false (hanswered _) (by simp)
      | design e =>
        cases e with
        | structural e => exact iff_of_false (hanswered _) (by simp)
        | fault f => exact iff_of_true ⟨.fault f, rfl⟩ ⟨f, rfl⟩
      | file e => exact iff_of_false (hfailed _ (by simp)) (by simp)
      | encoding => exact iff_of_false (hfailed _ (by simp)) (by simp)
      | value f => exact iff_of_false (hfailed _ (by simp)) (by simp)

end CommandLine

namespace Rendering

/-- **When rendering fails other than for the structure of the file.**  It does exactly if the
members of the first page are given by a truth value or a number that is neither false nor zero, or
a value of a node in the frame is not usable; the first is a fault of the kind, the second one of a
number.  A request to render such a file is answered with the status 500, and no other is; the
program is left with the failure on such a file, and on no other. -/
theorem faults_iff_pageUnwalkable_or_nodeUnusable (file : Json) :
    (Faults file ↔ (∃ kind, DesignFile.PageUnwalkable file kind) ∨ NodeUnusable file)
      ∧ (∀ fault, ofJson file = .error (.fault fault) →
        (∃ kind, fault = .notWalked kind ∧ DesignFile.PageUnwalkable file kind)
          ∨ fault.IsNumeric ∧ NodeUnusable file)
      ∧ (∀ (queue : Gateway.Queue) (request : Gateway.Request) (fields : Fields),
        file = .obj fields → Gateway.Route.find? request.address = some .render →
        request.method.map Char.toUpper = "POST" → Gateway.readBody request.body = .ok file →
          ((Gateway.serve queue request).1.status = 500 ↔ Faults file)
            ∧ (¬ Faults file → (Gateway.serve queue request).1.status = 200
              ∨ (Gateway.serve queue request).1.status = 422))
      ∧ ∀ (token : Option String) (arguments : Arguments)
          (cache : Option DocumentCache) (session session' : Session),
        CommandLine.cacheOf arguments = .ok cache →
        (Export.source (.standard token) cache arguments.key).perform session.begun
          = (.ok file, session') →
          ((∃ e, ((CommandLine.exportAction token arguments).perform session).1
              = .error (.design e))
            ↔ Faults file) := by
  refine ⟨faults_iff, fun fault h => fault_of_ofJson h, ?_, ?_⟩
  · rintro queue request fields rfl hroute hmethod hbody
    rw [Gateway.serve_render hroute hmethod hbody]
    exact Gateway.status_renderResponse fields
  · intro token arguments cache session session' hcache hfetch
    exact CommandLine.exportAction_eq_design_iff hcache hfetch

/-- The text of a file whose first page gives a number for its members. -/
def numberForMembersText : String :=
  "\x7b\"document\":\x7b\"children\":[\x7b\"children\":5\x7d]\x7d\x7d"

/-- The request to render the file. -/
def numberForMembersRequest : Gateway.Request :=
  ⟨"POST", "/render", numberForMembersText.toUTF8⟩

/-- A session in which the service gives the file. -/
def numberForMembersSession : Session :=
  .start .empty [.response 200 numberForMembersText] []

/-- The file is read from the request and fetched from the service, and neither the gateway nor the
program handles its fault. -/
theorem unhandled_numberForMembers :
    (∀ queue, (Gateway.serve queue numberForMembersRequest).1.status = 500)
      ∧ ∃ e, ((CommandLine.exportAction (some "token") ⟨"key", "dist", true, .standard⟩).perform
          numberForMembersSession).1 = .error (.design e) := by
  constructor
  · intro queue
    obtain ⟨fields, hread, hfaults⟩ : ∃ fields,
        Gateway.readBody numberForMembersRequest.body = .ok (.obj fields)
          ∧ Faults (.obj fields) :=
      exists_of_givesFaulty (by decide +kernel)
    have hmethod : numberForMembersRequest.method.map Char.toUpper = "POST" := by
      rw [← String.toList_inj, String.toList_map]
      decide
    obtain ⟨-, -, hgateway, -⟩ := faults_iff_pageUnwalkable_or_nodeUnusable (.obj fields)
    exact (hgateway queue numberForMembersRequest fields rfl (by decide +kernel) hmethod
      hread).1.mpr hfaults
  · cases hfetch : (Export.source (.standard (some "token")) none "key").perform
        numberForMembersSession.begun with
    | mk answer session =>
      obtain ⟨fields, rfl, hfaults⟩ : ∃ fields, answer = .ok (.obj fields)
          ∧ Faults (.obj fields) := by
        have hanswer : ((Export.source (.standard (some "token")) none "key").perform
            numberForMembersSession.begun).1 = answer := congrArg Prod.fst hfetch
        rw [← hanswer]
        exact exists_of_givesFaulty (by decide +kernel)
      obtain ⟨-, -, -, hprogram⟩ := faults_iff_pageUnwalkable_or_nodeUnusable (.obj fields)
      exact (hprogram (some "token") ⟨"key", "dist", true, .standard⟩ none numberForMembersSession
        session rfl hfetch).mpr hfaults

/-- The file whose first page gives a number for its members. -/
def numberForMembers : Json :=
  .obj [("document", .obj [("children", .arr [.obj [("children", .int 5)]])])]

/-- A number for the members of the first page is not reported as a wrong structure. -/
theorem ofJson_numberForMembers :
    ofJson numberForMembers = .error (.fault (.notWalked .int))
      ∧ (Gateway.renderResponse numberForMembers).status = 500 := by
  constructor
  · rfl
  · rfl

end Rendering

end FrameExport
