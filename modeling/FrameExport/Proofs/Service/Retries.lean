import FrameExport.Proofs.Fallible
import FrameExport.Proofs.Service.Exchange

/-!
# Requests and the pauses between them

How often the service is asked is told by the attempts and by the replies alone
(`Client.requestCount`), and every request but the last is followed by one pause.  The last reply
decides what a fetch gives, whatever the replies before it were (`Client.fetch_of_replies`).

That the pauses stand between the requests is seen where one of them cannot be computed: then just
the requests before it have been made.
-/

namespace FrameExport

namespace Client

variable {client : Client} {s : Session} {reply : Reply}

/-! ### The number of requests -/

/-- How many requests are made: the smaller of the attempts, one at least, and the position of the
first reply that settles the matter. -/
def requestCount (attempts : Int) (replies : List Reply) : Nat :=
  min (max 1 attempts).toNat (replies.findIdx Reply.settles + 1)

section RequestCount

variable {attempts : Int} {replies : List Reply}

theorem requestCount_pos (attempts : Int) (replies : List Reply) :
    0 < requestCount attempts replies := by
  unfold requestCount
  omega

theorem requestCount_le (attempts : Int) (replies : List Reply) :
    requestCount attempts replies ≤ (max 1 attempts).toNat := Nat.min_le_left _ _

/-- No reply before the last one settles the matter. -/
theorem settles_eq_false_of_mem_take {k : Nat} (hk : k < requestCount attempts replies) :
    ∀ reply ∈ replies.take k, reply.settles = false := by
  intro reply h
  obtain ⟨i, hi, rfl⟩ := List.mem_take_iff_getElem.mp h
  have hbefore : i < replies.findIdx Reply.settles := by
    unfold requestCount at hk
    omega
  simpa using List.not_of_lt_findIdx hbefore

/-- The last reply settles the matter, unless the attempts are used up. -/
theorem settles_getElem_or (h : requestCount attempts replies - 1 < replies.length) :
    replies[requestCount attempts replies - 1].settles = true
      ∨ requestCount attempts replies = (max 1 attempts).toNat := by
  rcases Nat.le_total (max 1 attempts).toNat (replies.findIdx Reply.settles + 1) with hle | hle
  · exact Or.inr (Nat.min_eq_left hle)
  · have hcount : requestCount attempts replies - 1 = replies.findIdx Reply.settles := by
      rw [requestCount, Nat.min_eq_right hle, Nat.add_sub_cancel]
    simp only [hcount] at h ⊢
    exact Or.inl (List.findIdx_getElem (w := h))

end RequestCount

theorem attemptCount_int (attempts : Int) :
    attemptCount (.int attempts) = .ok (max 1 attempts).toNat := by
  have hmax : max 1 attempts.toNat = (max 1 attempts).toNat := by omega
  rw [attemptCount, hmax]

end Client

/-! ### Pauses -/

/-- Zero or above: neither NaN nor with a minus sign. -/
def Double.IsNonnegative : Double → Prop
  | .nan => False
  | .infinite negative => negative = false
  | .finite negative _ => negative = false

theorem Double.isNonnegative_clampBelowZero (x : Double) : x.clampBelowZero.IsNonnegative := by
  unfold clampBelowZero
  split
  · rfl
  · split <;> rfl
  · rfl

namespace Client

variable {client : Client}

theorem Computes.isNonnegative {attempt : Nat} {draws lengths : List Double} {length : Double}
    (h : client.Computes attempt draws lengths) (hlength : length ∈ lengths) :
    length.IsNonnegative := by
  obtain ⟨k, hk, rfl⟩ := List.getElem_of_mem hlength
  obtain ⟨t, -, hclamp⟩ := bind_eq_ok_iff.mp (h k hk)
  rw [← Except.ok.inj hclamp]
  exact Double.isNonnegative_clampBelowZero _

/-! ### Requests and pauses -/

section Requests

variable {attempts : Int} {n : Nat} {lengths : List Double}

/-- An exchange with all its pauses makes as many requests as are to be made, and comes to the reply
to the last one. -/
theorem perform_exchange_of_requestCount (client : Client) (request : Request)
    (hn : n = requestCount attempts s.replies) (hlast : n - 1 < s.replies.length)
    (hcomputes : client.Computes 1 s.draws lengths) (hlengths : lengths.length = n - 1) :
    (client.exchange request ((max 1 attempts).toNat - 1) 1).perform s
      = (.ok s.replies[n - 1], { s with
          journal := s.journal ++ (s.replies.take (n - 1)).map Reply.retryEvent
          replies := s.replies.drop n
          draws := s.draws.drop (n - 1)
          requests := s.requests ++ List.replicate n request
          pauses := s.pauses ++ lengths }) := by
  have hpos : 0 < n := hn ▸ requestCount_pos attempts s.replies
  have hle : n ≤ (max 1 attempts).toNat := hn ▸ requestCount_le attempts s.replies
  have hreplies : (s.paused request lengths).replies = s.replies[n - 1] :: s.replies.drop n := by
    rw [Session.paused, hlengths, List.drop_eq_getElem_cons hlast, Nat.sub_add_cancel hpos]
  have hsettles : s.replies[n - 1].settles = true ∨ (max 1 attempts).toNat - n = 0 := by
    subst hn
    rcases settles_getElem_or hlast with h | h
    · exact Or.inl h
    · exact Or.inr (by omega)
  have hleft : (max 1 attempts).toNat - 1 = (max 1 attempts).toNat - n + lengths.length := by
    omega
  have hbefore : ∀ k < requestCount attempts s.replies, ∀ reply ∈ s.replies.take k,
      reply.settles = false := fun _ => settles_eq_false_of_mem_take
  rw [hleft, perform_exchange_of_pauses request hcomputes (by omega) (hbefore _ (by omega)),
    perform_exchange_of_settles client _ _ hreplies hsettles]
  simp only [Session.paused, hlengths, List.append_assoc, ← List.replicate_succ',
    Nat.sub_add_cancel hpos]

/-- An exchange ends at the first pause that cannot be computed, after the request before it. -/
theorem perform_exchange_of_pause_fault (client : Client) (request : Request) {fault : Fault}
    (hlengths : lengths.length < requestCount attempts s.replies - 1)
    (hlast : lengths.length < s.replies.length) (hcomputes : client.Computes 1 s.draws lengths)
    (hfault : Backoff.pause client.backoff (lengths.length + 1) (s.draws.getD lengths.length .half)
      = .error fault) :
    ∃ s', (client.exchange request ((max 1 attempts).toNat - 1) 1).perform s
        = (.error (.value fault), s') ∧
      s'.requests = s.requests ++ List.replicate (lengths.length + 1) request ∧
      s'.pauses = s.pauses ++ lengths := by
  have hle := requestCount_le attempts s.replies
  have hreplies : (s.paused request lengths).replies
      = s.replies[lengths.length] :: s.replies.drop (lengths.length + 1) := by
    rw [Session.paused, List.drop_eq_getElem_cons hlast]
  have hbefore : ∀ k < requestCount attempts s.replies, ∀ reply ∈ s.replies.take k,
      reply.settles = false := fun _ => settles_eq_false_of_mem_take
  have hsettles : s.replies[lengths.length].settles = false :=
    hbefore (lengths.length + 1) (by omega) _
      (List.mem_take_iff_getElem.mpr ⟨lengths.length, by omega, rfl⟩)
  have hleft : (max 1 attempts).toNat - 1
      = (max 1 attempts).toNat - 2 - lengths.length + 1 + lengths.length := by
    omega
  have hpause : Backoff.pause client.backoff (1 + lengths.length)
      ((s.paused request lengths).draws.headD .half) = .error fault := by
    rw [Nat.add_comm, Session.paused, List.headD_eq_head?_getD, List.head?_drop,
      ← List.getD_eq_getElem?_getD]
    exact hfault
  rw [hleft, perform_exchange_of_pauses request hcomputes (by omega)
    (hbefore _ (by omega)), perform_exchange_of_fault _ hreplies hsettles hpause]
  refine ⟨_, rfl, ?_, rfl⟩
  simp only [Session.paused, List.append_assoc, ← List.replicate_succ']

end Requests

/-! ### Fetching -/

/-- **A fetch and its retries.**  Without a token there is no request.  With one there are as many
requests as `requestCount` says, all of them the same, and one pause after each but the last; the
reply to the last request alone decides the answer.  If a pause cannot be computed, the fetch ends
there, after as many requests as there are pauses up to this one. -/
theorem fetch_of_replies (client : Client) (key : String) (s : Session) :
    (client.token.isTruthy = false →
      (client.fetch key).perform s = (.error (.service ⟨401, noToken.message⟩), s)) ∧
    ∀ (attempts : Int) (n : Nat) (lengths : List Double),
      client.token.isTruthy = true → client.attempts = .int attempts →
      n = requestCount attempts s.replies → n ≤ s.replies.length →
      client.Computes 1 s.draws lengths →
        (∀ length ∈ lengths, length.IsNonnegative) ∧
        (lengths.length = n - 1 → ∃ reply answer,
          s.replies[n - 1]? = some reply ∧ Decides reply answer ∧
          (client.fetch key).perform s = (answer, { s with
            journal := s.journal ++ ((s.replies.take (n - 1)).map Reply.retryEvent
              ++ [reply.lastEvent])
            replies := s.replies.drop n
            draws := s.draws.drop (n - 1)
            requests := s.requests
              ++ List.replicate n ⟨client.url key, client.token, client.timeout⟩
            pauses := s.pauses ++ lengths })) ∧
        ∀ fault, lengths.length < n - 1 →
          Backoff.pause client.backoff (lengths.length + 1) (s.draws.getD lengths.length .half)
              = .error fault →
            ∃ s', (client.fetch key).perform s = (.error (.value fault), s') ∧
              s'.requests = s.requests ++ List.replicate (lengths.length + 1)
                ⟨client.url key, client.token, client.timeout⟩ ∧
              s'.pauses = s.pauses ++ lengths := by
  refine ⟨fun htoken => perform_fetch_of_noToken key htoken s, ?_⟩
  rintro attempts n lengths htoken hattempts hn hlong hcomputes
  have hpos : 0 < n := hn ▸ requestCount_pos attempts s.replies
  rw [perform_fetch key htoken (by rw [hattempts, attemptCount_int]) s]
  refine ⟨fun length => hcomputes.isNonnegative, fun hlengths => ?_, fun fault hlengths hfault => ?_⟩
  · have hlast : n - 1 < s.replies.length := by omega
    refine ⟨s.replies[n - 1], answerOf s.replies[n - 1], List.getElem?_eq_getElem hlast,
      decides_answerOf _, ?_⟩
    rw [perform_exchange_of_requestCount client _ hn hlast hcomputes hlengths]
    simp only [Session.reported, List.append_assoc]
    rfl
  · obtain ⟨s', hexchange, hrequests, hpauses⟩ := perform_exchange_of_pause_fault client
      (client.requestFor key) (hn ▸ hlengths) (by omega) hcomputes hfault
    rw [hexchange]
    exact ⟨s', rfl, hrequests, hpauses⟩

/-- No response, then a server that is too busy, then the file: three requests and two pauses. -/
theorem fetch_of_three_replies :
    let client : Client := { Client.standard (some "secret") with backoff := .int 1 }
    let request : Request := ⟨client.url "key", client.token, client.timeout⟩
    let s : Session := .start ⟨[], []⟩
      [.unreachable "timed out", .response 503 "busy", .response 200 "\x7b\x7d"] []
    ∃ s', (client.fetch "key").perform s = (.ok (.obj []), s') ∧
      s'.requests = [request, request, request] ∧ s'.pauses = [.one, .ofNat 2] := by
  intro client request s
  have hfirst : Backoff.pause (.int 1) 1 .half = .ok .one := by decide +kernel
  have hsecond : Backoff.pause (.int 1) 2 .half = .ok (.ofNat 2) := by decide +kernel
  have hcomputes : client.Computes 1 [] [.one, .ofNat 2] := by
    simp only [computes_cons, List.headD_nil, List.tail_nil]
    exact ⟨hfirst, hsecond, nofun⟩
  obtain ⟨-, hanswer, -⟩ := (fetch_of_replies client "key" s).2 3 3 [.one, .ofNat 2]
    rfl rfl (by decide) (by decide) hcomputes
  obtain ⟨reply, answer, hreply, hdecides, hperform⟩ := hanswer rfl
  obtain rfl : Reply.response 200 "\x7b\x7d" = reply := Option.some.inj hreply
  have hread : Json.read "\x7b\x7d" = .ok (.obj []) := by rfl
  have hobject : answer = .ok (.obj []) := by
    cases hdecides with
    | refused _ h => exact absurd rfl h
    | notJson h => cases hread.symm.trans h
    | notAnObject h hv => cases hread.symm.trans h; cases hv
    | object h => cases hread.symm.trans h; rfl
  exact ⟨_, hobject ▸ hperform, rfl, rfl⟩

end Client

end FrameExport
