import FrameExport.Proofs.Service.Exchange

/-!
# What the service delivers

A fetch works on the conversation with the service and on nothing else: the files stay as they are,
whatever the replies are (`Client.keeps_files_fetch`).  A file that it gives is the text of one of the
replies, the last one that was taken (`Client.delivers_of_fetch`), and when it fails, the reason is
never a design (`Client.failsOnly_fetch`).
-/

namespace FrameExport

/-- Replies were taken up to one with the status 200, whose text is the file. -/
def Reply.Delivers (before after : List Reply) (fields : Fields) : Prop :=
  ∃ (earlier : List Reply) (body : String),
    before = earlier ++ .response 200 body :: after ∧ Json.read body = .ok (.obj fields)

namespace Client

variable {client : Client} {request : Request} {s s' : Session} {reply : Reply} {left attempt : Nat}
  {key : String}

/-- The part of an exchange that follows a reply that does not settle the matter. -/
def again (client : Client) (request : Request) (left attempt : Nat) (event : Event) :
    Action Reply := do
  Action.report [event]
  client.pauseAfter attempt
  client.exchange request left (attempt + 1)

theorem exchange_succ (client : Client) (request : Request) (left attempt : Nat) :
    client.exchange request (left + 1) attempt
      = send request >>= fun reply =>
        if reply.settles then pure reply
        else client.again request left attempt reply.retryEvent := by
  rw [exchange]
  congr 1
  funext reply
  cases reply with
  | unreachable message => rfl
  | response status body =>
    cases h : isRetryable status <;> simp only [Reply.settles, h] <;> rfl

/-! ### The files -/

theorem keeps_files_send (request : Request) : Action.Keeps Session.files (send request) := by
  rintro ⟨files, journal, replies, draws, requests, pauses⟩
  cases replies <;> rfl

/-- A pause changes the random draws, the pauses and nothing else. -/
theorem keeps_pauseAfter {γ : Type} {view : Session → γ} (client : Client) (attempt : Nat)
    (hview : ∀ (s : Session) (draws pauses : List Double),
      view { s with draws := draws, pauses := pauses } = view s) :
    Action.Keeps view (client.pauseAfter attempt) := by
  intro s
  rw [perform_pauseAfter]
  cases Backoff.pause client.backoff attempt (s.draws.headD .half) <;> exact hview s _ _

theorem keeps_files_exchange (client : Client) (request : Request) :
    ∀ left attempt, Action.Keeps Session.files (client.exchange request left attempt)
  | 0, _ => keeps_files_send request
  | left + 1, attempt => by
    rw [exchange_succ]
    refine (keeps_files_send request).bind fun reply => ?_
    split
    · exact Action.keeps_pure reply
    · exact (Action.keeps_report (fun _ _ => rfl) _).bind fun _ =>
        (client.keeps_pauseAfter attempt fun _ _ _ => rfl).bind fun _ =>
          client.keeps_files_exchange request left (attempt + 1)

/-- A fetch leaves the files as they are, whatever comes of it. -/
theorem keeps_files_fetch (client : Client) (key : String) :
    Action.Keeps Session.files (client.fetch key) := by
  rw [fetch]
  split
  · refine (Action.keeps_ofExcept _).bind fun attempts =>
      (client.keeps_files_exchange _ _ _).bind fun reply => ?_
    cases reply with
    | unreachable message =>
      exact (Action.keeps_report (fun _ _ => rfl) _).bind fun _ => Action.keeps_ofExcept _
    | response status body =>
      exact (Action.keeps_report (fun _ _ => rfl) _).bind fun _ =>
        (Action.keeps_ofExcept _).bind fun _ => Action.keeps_pure _
  · exact Action.keeps_ofExcept _

/-! ### The replies -/

/-- A request is answered by the next reply; without one, no response comes. -/
theorem replies_of_send (h : (send request).perform s = (.ok reply, s')) :
    s.replies = reply :: s'.replies ∨ (reply = .unreachable "" ∧ s'.replies = s.replies) := by
  obtain ⟨files, journal, replies, draws, requests, pauses⟩ := s
  cases replies with
  | nil =>
    obtain ⟨hreply, hsession⟩ := Prod.mk.inj h
    obtain rfl := Except.ok.inj hreply
    exact Or.inr ⟨rfl, by rw [← hsession]⟩
  | cons first rest =>
    obtain ⟨hreply, hsession⟩ := Prod.mk.inj h
    obtain rfl := Except.ok.inj hreply
    exact Or.inl (by rw [← hsession])

/-- An exchange comes to the last reply that it has taken, or to none. -/
theorem replies_of_exchange (h : (client.exchange request left attempt).perform s = (.ok reply, s')) :
    (∃ earlier, s.replies = earlier ++ reply :: s'.replies) ∨ reply = .unreachable "" := by
  induction left generalizing s attempt with
  | zero =>
    rcases replies_of_send h with htaken | ⟨hnone, -⟩
    · exact Or.inl ⟨[], htaken⟩
    · exact Or.inr hnone
  | succ left ih =>
    rw [exchange_succ] at h
    obtain ⟨first, asked, hsend, hrest⟩ := Action.perform_bind_eq_ok_iff.mp h
    have htaken := replies_of_send hsend
    split at hrest
    case isTrue =>
      obtain ⟨hreply, rfl⟩ := Prod.mk.inj hrest
      obtain rfl := Except.ok.inj hreply
      rcases htaken with htaken | ⟨hnone, -⟩
      · exact Or.inl ⟨[], htaken⟩
      · exact Or.inr hnone
    case isFalse =>
      -- the exchange goes on with the replies that the request has left
      rw [again, Action.perform_bind_of_ok (Action.perform_report _ asked)] at hrest
      obtain ⟨_, paused, hpause, hexchange⟩ := Action.perform_bind_eq_ok_iff.mp hrest
      have hkeeps : Action.Keeps Session.replies (client.pauseAfter attempt) :=
        client.keeps_pauseAfter attempt fun _ _ _ => rfl
      have hreplies := hkeeps.eq hpause
      rw [Session.reported_replies] at hreplies
      rcases ih hexchange with ⟨earlier, hearlier⟩ | hnone
      · rw [hreplies] at hearlier
        rcases htaken with htaken | ⟨-, hsame⟩
        · exact Or.inl ⟨first :: earlier, by rw [htaken, hearlier, List.cons_append]⟩
        · exact Or.inl ⟨earlier, by rw [← hsame, hearlier]⟩
      · exact Or.inr hnone

/-- A file that a fetch gives is an object, and the text of the last reply that was taken. -/
theorem delivers_of_fetch {file : Json} (h : (client.fetch key).perform s = (.ok file, s')) :
    ∃ fields, file = .obj fields ∧ Reply.Delivers s.replies s'.replies fields := by
  cases htoken : client.token.isTruthy with
  | false =>
    rw [perform_fetch_of_noToken key htoken] at h
    cases h
  | true =>
    cases hattempts : attemptCount client.attempts with
    | error fault =>
      rw [fetch, if_pos htoken, hattempts] at h
      cases h
    | ok attempts =>
      rw [perform_fetch key htoken hattempts] at h
      cases hexchange : (client.exchange (client.requestFor key) (attempts - 1) 1).perform s with
      | mk answer last =>
        rw [hexchange] at h
        cases answer with
        | error failure => cases h
        | ok reply =>
          obtain ⟨hanswer, rfl⟩ := Prod.mk.inj h
          have hdecides := decides_answerOf reply
          rw [hanswer] at hdecides
          cases hdecides with
          | object hread =>
            rcases replies_of_exchange hexchange with ⟨earlier, hearlier⟩ | hnone
            · exact ⟨_, rfl, earlier, _, hearlier, hread⟩
            · cases hnone

/-! ### The reason of a failure -/

section FailsOnly

variable {P : Failure → Prop}

theorem failsOnly_send (request : Request) : Action.FailsOnly P (send request) := by
  rintro ⟨files, journal, replies, draws, requests, pauses⟩ failure h
  cases replies <;> cases h

theorem failsOnly_pauseAfter (hvalue : ∀ fault, P (.value fault)) (client : Client) (attempt : Nat) :
    Action.FailsOnly P (client.pauseAfter attempt) := by
  intro s failure h
  rw [perform_pauseAfter] at h
  split at h
  · cases h
  · cases h
    exact hvalue _

theorem failsOnly_exchange (hvalue : ∀ fault, P (.value fault)) (client : Client)
    (request : Request) :
    ∀ left attempt, Action.FailsOnly P (client.exchange request left attempt)
  | 0, _ => failsOnly_send request
  | left + 1, attempt => by
    rw [exchange_succ]
    refine (failsOnly_send request).bind fun reply => ?_
    split
    · exact Action.failsOnly_pure reply
    · exact (Action.failsOnly_modify _).bind fun _ =>
        (failsOnly_pauseAfter hvalue client attempt).bind fun _ =>
          failsOnly_exchange hvalue client request left (attempt + 1)

/-- A fetch fails because of the service, or since a setting of the client cannot be used. -/
theorem failsOnly_fetch (hservice : ∀ e, P (.service e)) (hvalue : ∀ fault, P (.value fault))
    (client : Client) (key : String) : Action.FailsOnly P (client.fetch key) := by
  rw [fetch]
  split
  · refine (Action.failsOnly_ofExcept fun failure h => ?_).bind fun attempts =>
      (failsOnly_exchange hvalue client _ _ _).bind fun reply => ?_
    · obtain ⟨fault, -, rfl⟩ := mapError_eq_error_iff.mp h
      exact hvalue fault
    · cases reply with
      | unreachable message =>
        refine (Action.failsOnly_modify _).bind fun _ => Action.failsOnly_ofExcept fun failure h => ?_
        obtain rfl := Except.error.inj h
        exact hservice _
      | response status body =>
        refine (Action.failsOnly_modify _).bind fun _ =>
          (Action.failsOnly_ofExcept fun failure h => ?_).bind fun _ => Action.failsOnly_pure _
        obtain ⟨e, -, rfl⟩ := mapError_eq_error_iff.mp h
        exact hservice e
  · refine Action.failsOnly_ofExcept fun failure h => ?_
    obtain rfl := Except.error.inj h
    exact hservice _

end FailsOnly

end Client

end FrameExport
