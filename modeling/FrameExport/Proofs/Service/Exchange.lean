import FrameExport.Proofs.Session
import FrameExport.Service.Client
import Mathlib.Data.List.Basic

/-!
# The conversation with the service

An exchange goes on in rounds: a request, a reply that does not settle the matter, and a pause.  A
round leads from one session to the next (`Client.perform_exchange_of_pause`), and so do rounds in a
row (`Client.perform_exchange_of_pauses`); what comes after them is an exchange with fewer attempts
left.  An exchange ends with a reply that settles the matter or with the last attempt
(`Client.perform_exchange_of_settles`), or with a pause that cannot be computed
(`Client.perform_exchange_of_fault`).

A fetch is an exchange of which the last reply counts (`Client.perform_fetch`).
-/

namespace FrameExport

/-! ### Replies -/

namespace Reply

/-- Whether a reply settles the matter: a response that does not say that the service is busy or
broken. -/
def settles : Reply → Bool
  | .response status _ => !Client.isRetryable status
  | .unreachable _ => false

/-- The report that follows a reply after which the request is made again. -/
def retryEvent : Reply → Event
  | .response _ _ => .statusRetry
  | .unreachable _ => .networkRetry

/-- The report that follows the last reply. -/
def lastEvent : Reply → Event
  | .response _ _ => .responded
  | .unreachable _ => .networkFailed

end Reply

/-! ### Rounds -/

/-- The session after rounds with the given pauses, each of which followed a request and a reply. -/
def Session.paused (s : Session) (request : Request) (lengths : List Double) : Session :=
  { s with
    journal := s.journal ++ (s.replies.take lengths.length).map Reply.retryEvent
    replies := s.replies.drop lengths.length
    draws := s.draws.drop lengths.length
    requests := s.requests ++ List.replicate lengths.length request
    pauses := s.pauses ++ lengths }

namespace Session

variable {s : Session} {request : Request}

theorem paused_nil (s : Session) (request : Request) : s.paused request [] = s := by
  simp [paused]

/-- Rounds in a row are a round and the rounds after it. -/
theorem paused_cons (s : Session) (request : Request) (length : Double) (lengths : List Double) :
    s.paused request (length :: lengths) = (s.paused request [length]).paused request lengths := by
  simp only [paused, List.length_cons, List.length_nil, Nat.zero_add, List.drop_drop,
    List.append_assoc, ← List.replicate_add, ← List.map_append, ← List.take_add, Nat.add_comm 1,
    List.singleton_append]

end Session

namespace Client

variable {client : Client} {request : Request} {s : Session} {reply : Reply} {rest : List Reply}
  {left attempt : Nat}

/-! ### Steps -/

theorem perform_send (request : Request) (h : s.replies = reply :: rest) :
    (send request).perform s
      = (.ok reply, { s with replies := rest, requests := s.requests ++ [request] }) := by
  obtain ⟨files, journal, replies, draws, requests, pauses⟩ := s
  subst h
  rfl

theorem perform_draw (s : Session) :
    draw.perform s = (.ok (s.draws.headD .half), { s with draws := s.draws.tail }) := by
  have hget : (get : Action Session).perform s = (.ok s, s) := rfl
  rw [draw, Action.perform_bind_of_ok hget]
  obtain ⟨files, journal, replies, draws, requests, pauses⟩ := s
  cases draws with
  | nil =>
    rw [List.headD_nil]
    exact Action.perform_pure _ _
  | cons x draws => rfl

/-- A pause takes a draw, whether it can be computed or not. -/
theorem perform_pauseAfter (client : Client) (attempt : Nat) (s : Session) :
    (client.pauseAfter attempt).perform s
      = match Backoff.pause client.backoff attempt (s.draws.headD .half) with
        | .ok length => (.ok (), { s with draws := s.draws.tail, pauses := s.pauses ++ [length] })
        | .error fault => (.error (.value fault), { s with draws := s.draws.tail }) := by
  rw [pauseAfter, Action.perform_bind, perform_draw]
  dsimp only
  rw [Action.perform_bind, Action.perform_ofExcept]
  cases Backoff.pause client.backoff attempt (s.draws.headD .half) <;> rfl

/-- A reply that settles the matter ends the exchange, and so does the one to the last request. -/
theorem perform_exchange_of_settles (client : Client) (request : Request) (attempt : Nat)
    (h : s.replies = reply :: rest) (hlast : reply.settles = true ∨ left = 0) :
    (client.exchange request left attempt).perform s
      = (.ok reply, { s with replies := rest, requests := s.requests ++ [request] }) := by
  cases left with
  | zero => exact perform_send request h
  | succ left =>
    rw [exchange, Action.perform_bind_of_ok (perform_send request h)]
    cases reply with
    | unreachable message => simp [Reply.settles] at hlast
    | response status body =>
      have hstatus : isRetryable status = false := by simpa [Reply.settles] using hlast
      simp only [hstatus, Bool.false_eq_true, if_false]
      rfl

/-- After a reply that does not settle the matter there is a pause, if attempts are left, and then
the next attempt. -/
theorem perform_exchange_succ (client : Client) (request : Request) (left attempt : Nat)
    (h : s.replies = reply :: rest) (hreply : reply.settles = false) :
    (client.exchange request (left + 1) attempt).perform s
      = (client.pauseAfter attempt >>= fun _ => client.exchange request left (attempt + 1)).perform
        { s with
          journal := s.journal ++ [reply.retryEvent]
          replies := rest
          requests := s.requests ++ [request] } := by
  rw [exchange, Action.perform_bind_of_ok (perform_send request h)]
  cases reply with
  | unreachable message => rfl
  | response status body =>
    have hstatus : isRetryable status = true := by simpa [Reply.settles] using hreply
    simp only [hstatus, if_true]
    rfl

/-- A round that ends with a pause is followed by the next attempt. -/
theorem perform_exchange_of_pause (request : Request) (h : s.replies = reply :: rest)
    (hreply : reply.settles = false) {length : Double}
    (hpause : Backoff.pause client.backoff attempt (s.draws.headD .half) = .ok length) :
    (client.exchange request (left + 1) attempt).perform s
      = (client.exchange request left (attempt + 1)).perform (s.paused request [length]) := by
  rw [perform_exchange_succ client request left attempt h hreply, Action.perform_bind,
    perform_pauseAfter]
  dsimp only
  rw [hpause]
  dsimp only
  congr 1
  simp [Session.paused, h]

/-- A pause that cannot be computed ends the exchange, after the request and before another one. -/
theorem perform_exchange_of_fault (request : Request) (h : s.replies = reply :: rest)
    (hreply : reply.settles = false) {fault : Fault}
    (hpause : Backoff.pause client.backoff attempt (s.draws.headD .half) = .error fault) :
    (client.exchange request (left + 1) attempt).perform s
      = (.error (.value fault), { s with
          journal := s.journal ++ [reply.retryEvent]
          replies := rest
          draws := s.draws.tail
          requests := s.requests ++ [request] }) := by
  rw [perform_exchange_succ client request left attempt h hreply, Action.perform_bind,
    perform_pauseAfter]
  dsimp only
  rw [hpause]

/-! ### Rounds in a row -/

/-- The pauses after the attempts from a given one on are computed from the draws in their order, a
draw that is missing being one half. -/
def Computes (client : Client) (attempt : Nat) (draws lengths : List Double) : Prop :=
  ∀ (k : Nat) (hk : k < lengths.length),
    Backoff.pause client.backoff (attempt + k) (draws.getD k .half) = .ok lengths[k]

theorem computes_cons {draws lengths : List Double} {length : Double} :
    client.Computes attempt draws (length :: lengths)
      ↔ Backoff.pause client.backoff attempt (draws.headD .half) = .ok length
        ∧ client.Computes (attempt + 1) draws.tail lengths := by
  have hhead : draws.getD 0 .half = draws.headD .half := by cases draws <;> rfl
  have htail : ∀ k, draws.getD (k + 1) .half = draws.tail.getD k .half := by
    intro k
    cases draws <;> simp
  constructor
  · intro h
    refine ⟨hhead ▸ h 0 (Nat.zero_lt_succ _), fun k hk => ?_⟩
    have hnext := h (k + 1) (Nat.succ_lt_succ hk)
    rwa [htail, ← Nat.add_assoc, Nat.add_right_comm] at hnext
  · rintro ⟨hfirst, hrest⟩ k hk
    cases k with
    | zero => rwa [hhead]
    | succ k =>
      rw [htail, ← Nat.add_assoc, Nat.add_right_comm]
      exact hrest k (Nat.lt_of_succ_lt_succ hk)

/-- Rounds in a row are followed by an exchange with fewer attempts left. -/
theorem perform_exchange_of_pauses (request : Request) {lengths : List Double}
    (hcomputes : client.Computes attempt s.draws lengths) (hlong : lengths.length ≤ s.replies.length)
    (hreplies : ∀ reply ∈ s.replies.take lengths.length, reply.settles = false) :
    (client.exchange request (left + lengths.length) attempt).perform s
      = (client.exchange request left (attempt + lengths.length)).perform
        (s.paused request lengths) := by
  induction lengths generalizing s attempt with
  | nil => rw [Session.paused_nil, List.length_nil, Nat.add_zero, Nat.add_zero]
  | cons length lengths ih =>
    obtain ⟨hpause, hcomputes⟩ := computes_cons.mp hcomputes
    obtain ⟨reply, rest, hs⟩ : ∃ reply rest, s.replies = reply :: rest :=
      List.exists_cons_of_length_pos (by rw [List.length_cons] at hlong; omega)
    rw [hs, List.length_cons, List.take_succ_cons, List.forall_mem_cons] at hreplies
    have hnext : (s.paused request [length]).replies = rest := by simp [Session.paused, hs]
    have hdraws : (s.paused request [length]).draws = s.draws.tail := by simp [Session.paused]
    rw [List.length_cons, ← Nat.add_assoc, perform_exchange_of_pause request hs hreplies.1 hpause,
      ih (by rwa [hdraws]) (by rw [hnext]; simpa [hs] using hlong) (by rw [hnext]; exact hreplies.2),
      ← Session.paused_cons, Nat.add_right_comm]
    rfl

/-! ### The last reply -/

/-- What a single reply makes of a fetch. -/
inductive Decides : Reply → Except Failure Json → Prop where
  | unreachable (message : String) :
    Decides (.unreachable message) (.error (.service ⟨502, "Kunde inte nå Figma-API: " ++ message⟩))
  | refused {status : Int} (body : String) (h : status ≠ 200) :
    Decides (.response status body) (.error (.service (Client.refused status body)))
  | notJson {body : String} {error : Json.ReadError} (h : Json.read body = .error error) :
    Decides (.response 200 body) (.error (.service ⟨502, "Figma API svarade inte med giltig JSON"⟩))
  | notAnObject {body : String} {v : Json} (h : Json.read body = .ok v) (hv : v.fields? = none) :
    Decides (.response 200 body) (.error (.service ⟨502, "Figma API svarade med oväntad JSON-typ"⟩))
  | object {body : String} {file : Fields} (h : Json.read body = .ok (.obj file)) :
    Decides (.response 200 body) (.ok (.obj file))

/-- What is made of the reply that counts. -/
def answerOf : Reply → Except Failure Json
  | .unreachable message => .error (.service (unreachable message))
  | .response status body => ((readResponse status body).mapError .service).map .obj

theorem decides_answerOf (reply : Reply) : Decides reply (answerOf reply) := by
  cases reply with
  | unreachable message => exact .unreachable message
  | response status body =>
    rw [answerOf, readResponse]
    by_cases hstatus : status = 200
    · subst hstatus
      rw [if_neg (not_not.mpr rfl)]
      cases hread : Json.read body with
      | error e => exact .notJson hread
      | ok v =>
        cases v with
        | obj file => exact .object hread
        | _ => exact .notAnObject hread rfl
    · rw [if_pos hstatus]
      exact .refused body hstatus

/-- The request for the file with a key. -/
def requestFor (client : Client) (key : String) : Request :=
  ⟨client.url key, client.token, client.timeout⟩

theorem perform_fetch_of_noToken (key : String) (h : client.token.isTruthy = false) (s : Session) :
    (client.fetch key).perform s = (.error (.service noToken), s) := by
  rw [fetch, if_neg (by rw [h]; exact Bool.false_ne_true)]
  rfl

/-- A fetch with a token is an exchange of which the last reply counts. -/
theorem perform_fetch (key : String) (htoken : client.token.isTruthy = true) {attempts : Nat}
    (hattempts : attemptCount client.attempts = .ok attempts) (s : Session) :
    (client.fetch key).perform s
      = match (client.exchange (client.requestFor key) (attempts - 1) 1).perform s with
        | (.ok reply, s') => (answerOf reply, s'.reported [reply.lastEvent])
        | (.error e, s') => (.error e, s') := by
  have hcount : (Action.ofExcept ((attemptCount client.attempts).mapError .value)).perform s
      = (.ok attempts, s) := by
    rw [hattempts]
    rfl
  rw [fetch, if_pos htoken]
  dsimp only
  rw [Action.perform_bind_of_ok hcount, Action.perform_bind, ← requestFor.eq_def]
  cases (client.exchange (client.requestFor key) (attempts - 1) 1).perform s with
  | mk answer s' =>
    cases answer with
    | error e => rfl
    | ok reply =>
      cases reply with
      | unreachable message => rfl
      | response status body =>
        dsimp only
        rw [Action.perform_bind_of_ok (Action.perform_report [.responded] s'), Action.perform_bind,
          Action.perform_ofExcept, answerOf]
        cases readResponse status body <;> rfl

end Client

end FrameExport
