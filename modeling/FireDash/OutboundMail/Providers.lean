import FireDash.Lib.JsonSchema
import FireDash.OutboundMail.ReportDelivery

/-! The SMTP and the Brevo provider: how a conversation with a server becomes the answer of `send`, and
when that answer tells whether the server took the message. -/
namespace FireDash.OutboundMail.Providers

open Json (Text Value)
open Publications (Bytes)

/-! ### SMTP -/

/-- The exceptions `_map_smtp_failure` tells apart; `response` is every `SMTPResponseException` beside that of the login. -/
inductive SmtpFailure where
  | providerConfiguration
  | authentication
  | notSupported
  | ssl
  | recipientsRefused
  | response (code : ℤ)
  | os
  | serverDisconnected
  | smtp
  | other
  deriving DecidableEq

def mapSmtpFailure : SmtpFailure → MailProviderError
  | .authentication | .notSupported | .ssl => .providerConfiguration
  | .recipientsRefused => .messageRejected
  | .response code => if 400 ≤ code ∧ code < 500 then .providerUnavailable else .messageRejected
  -- Every `SMTPException` is an `OSError`, so the branch for the remaining ones is not reached.
  | .os | .serverDisconnected | .smtp => .providerUnavailable
  | .other => .providerUnavailable
  -- `send` passes this exception on before it is mapped.
  | .providerConfiguration => .providerConfiguration

/-- The exceptions that leave the message undecided: those of the connection, and the response of a temporary failure. -/
def SmtpFailure.Undecided : SmtpFailure → Prop
  | .os | .serverDisconnected | .smtp | .other => True
  | .response code => 400 ≤ code ∧ code < 500
  | .providerConfiguration | .authentication | .notSupported | .ssl | .recipientsRefused => False

theorem mapSmtpFailure_eq_unavailable {failure : SmtpFailure} :
    mapSmtpFailure failure = .providerUnavailable ↔ failure.Undecided := by
  cases failure with
  | response code => simp [mapSmtpFailure, SmtpFailure.Undecided]
  | _ => simp [mapSmtpFailure, SmtpFailure.Undecided]

/-- What `smtplib` makes of a command and its reply: the code, or an exception. A lost connection raises `serverDisconnected`,
a line of the reply beyond 8192 bytes raises `response 500`. -/
inductive Reply where
  | code (n : ℤ)
  | raises (failure : SmtpFailure)
  deriving DecidableEq

/-- An overlong line. -/
def Reply.tooLong : Reply := .raises (.response 500)

def Reply.lost : Reply := .raises .serverDisconnected

/-- The replies of a server to the commands of one message, each as far as the command is sent. `opened` ends the connection,
the handshake and the login; `accepted` is whether the server took the message. -/
structure Conversation where
  opened : Except SmtpFailure Unit
  mail : Reply
  rcpt : Reply
  data : Reply
  dot : Reply
  rset : Reply
  quit : Reply
  accepted : Bool

/-- `smtplib` closes the connection itself with these exceptions. -/
def SmtpFailure.closes (failure : SmtpFailure) : Bool := failure = .serverDisconnected ∨ failure = .response 500

namespace Conversation

/-- The exception of a refused command, after the reset, and whether the connection is closed. -/
def refuse (c : Conversation) (code : ℤ) (failure : SmtpFailure) : SmtpFailure × Bool :=
  if code = 421 then (failure, true)
  else
    match c.rset with
    | .code _ => (failure, false)
    | .raises .serverDisconnected => (failure, true)
    | .raises failed => (failed, failed.closes)

/-- `smtplib.SMTP.sendmail` for one recipient. -/
def sendmail (c : Conversation) : Except (SmtpFailure × Bool) Unit :=
  match c.mail with
  | .raises failure => .error (failure, failure.closes)
  | .code n =>
    if n ≠ 250 then .error (c.refuse n (.response n))
    else
      match c.rcpt with
      | .raises failure => .error (failure, failure.closes)
      | .code n =>
        if n ≠ 250 ∧ n ≠ 251 then .error (c.refuse n .recipientsRefused)
        else
          match c.data with
          | .raises failure => .error (failure, failure.closes)
          | .code n =>
            if n ≠ 354 then .error (.response n, false)
            else
              match c.dot with
              | .raises failure => .error (failure, failure.closes)
              | .code n => if n ≠ 250 then .error (c.refuse n (.response n)) else .ok ()

end Conversation

/-- Django's mail backend for one message: `send_messages`, and the `close` at its end. -/
structure EmailBackend where
  sendMessages : Conversation → Except SmtpFailure ℕ
  close : Conversation → Except SmtpFailure Unit
  /-- A message is counted once `sendmail` has returned. -/
  counts : ∀ {c}, sendMessages c = .ok 1 → c.opened = .ok () ∧ c.sendmail = .ok ()
  /-- After `sendmail` the connection is closed where it is still there; an exception of `close` replaces the one before it. -/
  ends : ∀ {c}, c.opened = .ok () → sendMessages c =
    match c.sendmail with
    | .ok () => close c >>= fun _ => .ok 1
    | .error (failure, true) => .error failure
    | .error (failure, false) => close c >>= fun _ => .error failure
  /-- `close` sends `QUIT` and swallows two exceptions. -/
  quits : ∀ {c}, close c =
    match c.quit with
    | .code _ => .ok ()
    | .raises failure => if failure = .ssl ∨ failure = .serverDisconnected then .ok () else .error failure

/-- `SMTP` -/
def smtpProvider : Text := Json.text "SMTP"

/-- `SmtpProvider.send` -/
def smtpSend (backend : EmailBackend) (c : Conversation) : SendAnswer :=
  match backend.sendMessages c with
  | .ok sent =>
    if sent ≠ 1 then .raised (.provider (mapSmtpFailure .serverDisconnected)) else .result ⟨smtpProvider, none⟩
  | .error failure => .raised (.provider (mapSmtpFailure failure))

/-! ### Brevo -/

structure HttpResponse where
  statusCode : ℕ
  body : Bytes

/-- The exceptions of the transport. -/
inductive TransportFailure where
  | transport
  | other
  deriving DecidableEq

/-- The exceptions of `json.loads`. -/
inductive LoadsFailure where
  | invalid
  | other
  deriving DecidableEq

/-- The request to Brevo; `accepted` is whether the message was taken. -/
structure Exchange where
  response : Except TransportFailure HttpResponse
  accepted : Bool

/-- The `messageId` of the body of a created message. -/
def messageId (loads : Bytes → Except LoadsFailure Value) (body : Bytes) : Except Raised Text :=
  match loads body with
  | .error .invalid => throw (.provider .providerUnavailable)
  | .error .other => throw .unexpected
  | .ok (.dict fields) =>
    match Json.field fields (Json.text "messageId") with
    | some (.str (c :: id)) => return c :: id
    | _ => throw (.provider .providerUnavailable)
  | .ok _ => throw .unexpected

def brevoProvider : Text := Json.text "BREVO"

/-- `BrevoProvider.send` -/
def brevoSend (loads : Bytes → Except LoadsFailure Value) (x : Exchange) : SendAnswer :=
  match x.response with
  | .error .transport => .raised (.provider .providerUnavailable)
  | .error .other => .raised .unexpected
  | .ok response =>
    if response.statusCode = 201 then
      match messageId loads response.body with
      | .ok id => .result ⟨brevoProvider, some id⟩
      | .error raised => .raised raised
    else if response.statusCode = 429 ∨ 500 ≤ response.statusCode then .raised (.provider .providerUnavailable)
    else if response.statusCode ∈ [401, 402, 403] then .raised (.provider .providerConfiguration)
    else if response.statusCode ∈ [400, 422] then .raised (.provider .messageRejected)
    else .raised (.provider .providerUnavailable)

/-! ### What a server may have done -/

namespace Conversation

/-- The server asked for the message and was sent it. -/
def transmitted (c : Conversation) : Bool :=
  c.opened.isOk && c.mail = .code 250 && (c.rcpt = .code 250 || c.rcpt = .code 251) && c.data = .code 354

/-- The message was sent, and the reply to it is no refusal. -/
def mayAccept (c : Conversation) : Bool :=
  c.transmitted && match c.dot with
    | .code n => !(400 ≤ n && n < 600)
    | .raises _ => true

/-- A server takes the messages it answers with 250, and none that it was not sent or refuses. -/
def honest (c : Conversation) : Bool :=
  (!c.accepted || c.mayAccept) && (!(c.transmitted && c.dot = .code 250) || c.accepted)

end Conversation

namespace Exchange

/-- No answer of the classes that refuse a request. -/
def mayAccept (x : Exchange) : Bool :=
  match x.response with
  | .ok response => !(400 ≤ response.statusCode && response.statusCode < 500)
  | .error _ => true

def honest (x : Exchange) : Bool :=
  (!x.accepted || x.mayAccept) && match x.response with
    | .ok response => response.statusCode ≠ 201 || x.accepted
    | .error _ => true

end Exchange

/-- One call of `send`. -/
inductive Attempt where
  | smtp (backend : EmailBackend) (c : Conversation)
  | brevo (loads : Bytes → Except LoadsFailure Value) (x : Exchange)

namespace Attempt

def answer : Attempt → SendAnswer
  | .smtp backend c => smtpSend backend c
  | .brevo loads x => brevoSend loads x

def accepted : Attempt → Bool
  | .smtp _ c => c.accepted
  | .brevo _ x => x.accepted

def mayAccept : Attempt → Bool
  | .smtp _ c => c.mayAccept
  | .brevo _ x => x.mayAccept

def honest : Attempt → Bool
  | .smtp _ c => c.honest
  | .brevo _ x => x.honest

/-- The state a request is recorded in. -/
def state (a : Attempt) : RequestState := terminalState (answerOutcome a.answer)

/-- A failure excludes that the message was taken, a success shows it, and what may have been taken is not called failed. -/
structure Definite (a : Attempt) : Prop where
  failed : a.state = .failed → a.accepted = false
  success : a.state = .success → a.accepted = true
  unknown : a.mayAccept = true → a.state ≠ .success → a.state = .unknown

/-- Once the server may have taken the message, an exception of the mail backend leaves it undecided. -/
def Clear : Attempt → Prop
  | .smtp backend c => c.mayAccept = true → ∀ failure, backend.sendMessages c = .error failure → failure.Undecided
  | .brevo _ _ => True

end Attempt

section

variable {backend : EmailBackend} {c : Conversation}

/-- A message counts as sent only after its reply 250. -/
theorem sendMessages_one (h : backend.sendMessages c = .ok 1) : c.transmitted = true ∧ c.dot = .code 250 := by
  obtain ⟨hopened, hsendmail⟩ := backend.counts h
  unfold Conversation.sendmail at hsendmail
  split at hsendmail
  · cases hsendmail
  rename_i n hmail
  split at hsendmail
  · cases hsendmail
  rename_i hn
  split at hsendmail
  · cases hsendmail
  rename_i m hrcpt
  split at hsendmail
  · cases hsendmail
  rename_i hm
  split at hsendmail
  · cases hsendmail
  rename_i k hdata
  split at hsendmail
  · cases hsendmail
  rename_i hk
  split at hsendmail
  · cases hsendmail
  rename_i l hdot
  split at hsendmail
  · cases hsendmail
  rename_i hl
  obtain rfl : n = 250 := by omega
  obtain rfl : k = 354 := by omega
  obtain rfl : l = 250 := by omega
  have hm' : m = 250 ∨ m = 251 := by omega
  refine ⟨?_, hdot⟩
  unfold Conversation.transmitted
  rw [hopened, hmail, hrcpt, hdata]
  rcases hm' with rfl | rfl <;> rfl

theorem smtp_state_one (h : backend.sendMessages c = .ok 1) : (Attempt.smtp backend c).state = .success := by
  simp only [Attempt.state, Attempt.answer, smtpSend, h]
  rfl

/-- An empty count is answered like a lost connection. -/
theorem smtp_state_other {sent : ℕ} (h : backend.sendMessages c = .ok sent) (hsent : sent ≠ 1) :
    (Attempt.smtp backend c).state = .unknown := by
  simp only [Attempt.state, Attempt.answer, smtpSend, h, if_pos hsent]
  rfl

theorem smtp_state_error {failure : SmtpFailure} (h : backend.sendMessages c = .error failure) :
    (Attempt.smtp backend c).state = if mapSmtpFailure failure = .providerUnavailable then .unknown else .failed := by
  have hne : mapSmtpFailure failure ≠ .providerFailure := by
    unfold mapSmtpFailure
    split <;> try split
    all_goals nofun
  simp only [Attempt.state, Attempt.answer, smtpSend, h]
  cases hmap : mapSmtpFailure failure with
  | providerFailure => exact absurd hmap hne
  | providerUnavailable => rfl
  | messageRejected => rfl
  | providerConfiguration => rfl

theorem honest_iff : c.honest = true ↔
    (c.accepted = true → c.mayAccept = true) ∧ (c.transmitted = true → c.dot = .code 250 → c.accepted = true) := by
  unfold Conversation.honest
  cases c.accepted <;> cases c.mayAccept <;> cases c.transmitted <;> simp

/-- An SMTP outcome is definite exactly when the exceptions after acceptance leave the message undecided. -/
theorem smtp_definite_iff (honest : c.honest = true) : (Attempt.smtp backend c).Definite ↔ (Attempt.smtp backend c).Clear := by
  obtain ⟨hmay, htaken⟩ := honest_iff.mp honest
  constructor
  · intro hdefinite hmayAccept failure herror
    have hstate := smtp_state_error herror
    by_contra hverdict
    rw [if_neg (mapSmtpFailure_eq_unavailable.not.mpr hverdict)] at hstate
    have hunknown := hdefinite.unknown hmayAccept (by rw [hstate]; nofun)
    rw [hstate] at hunknown
    cases hunknown
  · intro hclear
    have hundecided (hstate : (Attempt.smtp backend c).state = .unknown) : (Attempt.smtp backend c).Definite := by
      refine ⟨fun hfailed => ?_, fun hsuccess => ?_, fun _ _ => hstate⟩
      · rw [hstate] at hfailed
        cases hfailed
      · rw [hstate] at hsuccess
        cases hsuccess
    cases hsend : backend.sendMessages c with
    | ok sent =>
      by_cases hsent : sent = 1
      · subst hsent
        have hstate := smtp_state_one hsend
        obtain ⟨htransmitted, hdot⟩ := sendMessages_one hsend
        refine ⟨fun hfailed => ?_, fun _ => htaken htransmitted hdot, fun _ hne => absurd hstate hne⟩
        rw [hstate] at hfailed
        cases hfailed
      · exact hundecided (smtp_state_other hsend hsent)
    | error failure =>
      have hstate := smtp_state_error hsend
      by_cases hverdict : failure.Undecided
      · rw [if_pos (mapSmtpFailure_eq_unavailable.mpr hverdict)] at hstate
        exact hundecided hstate
      · rw [if_neg (mapSmtpFailure_eq_unavailable.not.mpr hverdict)] at hstate
        have hrefused : c.mayAccept = false := by
          by_contra hmayAccept
          exact hverdict (hclear (Bool.not_eq_false _ ▸ hmayAccept) failure hsend)
        refine ⟨fun _ => ?_, fun hsuccess => ?_, fun hmayAccept => ?_⟩
        · cases haccepted : c.accepted with
          | false => exact haccepted
          | true =>
            rw [hmay haccepted] at hrefused
            cases hrefused
        · rw [hstate] at hsuccess
          cases hsuccess
        · exact absurd (hmayAccept.symm.trans hrefused) nofun

end

/-- How Brevo's statuses are recorded. -/
theorem brevo_state {loads : Bytes → Except LoadsFailure Value} {x : Exchange} :
    ((Attempt.brevo loads x).state = .failed →
      ∃ response, x.response = .ok response ∧ response.statusCode ∈ [400, 401, 402, 403, 422]) ∧
    ((Attempt.brevo loads x).state = .success → ∃ response, x.response = .ok response ∧ response.statusCode = 201) ∧
    (Attempt.brevo loads x).state ≠ .processing := by
  refine ⟨?_, ?_, terminalState_ne_processing _⟩
  · unfold Attempt.state Attempt.answer brevoSend
    dsimp only
    split
    · nofun
    · nofun
    · rename_i response hresponse
      intro hfailed
      refine ⟨response, hresponse, ?_⟩
      split at hfailed
      · split at hfailed
        · cases hfailed
        · rename_i raised hid
          unfold messageId at hid
          split at hid
          · cases hid
            cases hfailed
          · cases hid
            cases hfailed
          · split at hid
            · cases hid
            · cases hid
              cases hfailed
          · cases hid
            cases hfailed
      · split at hfailed
        · cases hfailed
        · split at hfailed
          · simp only [List.mem_cons, List.not_mem_nil, or_false] at *
            omega
          · split at hfailed
            · simp only [List.mem_cons, List.not_mem_nil, or_false] at *
              omega
            · cases hfailed
  · intro hsuccess
    obtain ⟨result, hresult⟩ := answerOutcome_delivered (delivered_of_terminalState hsuccess)
    unfold Attempt.answer brevoSend at hresult
    dsimp only at hresult
    split at hresult
    · cases hresult
    · cases hresult
    · rename_i response hresponse
      refine ⟨response, hresponse, ?_⟩
      split at hresult
      · assumption
      · repeat' split at hresult
        all_goals cases hresult

/-- Every outcome of Brevo is definite. -/
theorem brevo_definite {loads : Bytes → Except LoadsFailure Value} {x : Exchange} (honest : x.honest = true) :
    (Attempt.brevo loads x).Definite := by
  obtain ⟨hfailed, hsuccess, hended⟩ := @brevo_state loads x
  have hrefused : (Attempt.brevo loads x).state = .failed → x.mayAccept = false := by
    intro hstate
    obtain ⟨response, hresponse, hstatus⟩ := hfailed hstate
    unfold Exchange.mayAccept
    rw [hresponse]
    simp only [List.mem_cons, List.not_mem_nil, or_false] at hstatus
    simp only [Bool.not_eq_false', Bool.and_eq_true, decide_eq_true_eq]
    omega
  unfold Exchange.honest at honest
  rw [Bool.and_eq_true] at honest
  refine ⟨fun hstate => ?_, fun hstate => ?_, fun hmayAccept hne => ?_⟩
  · have hmay := honest.1
    rw [hrefused hstate, Bool.or_false, Bool.not_eq_true'] at hmay
    exact hmay
  · obtain ⟨response, hresponse, hstatus⟩ := hsuccess hstate
    have htaken := honest.2
    rw [hresponse] at htaken
    change x.accepted = true
    simpa [hstatus] using htaken
  · cases hstate : (Attempt.brevo loads x).state with
    | processing => exact absurd hstate hended
    | success => exact absurd hstate hne
    | failed => exact absurd (hmayAccept.symm.trans (hrefused hstate)) nofun
    | unknown => rfl

/-- Which attempts end with a definite outcome. -/
theorem definite_iff {a : Attempt} (honest : a.honest = true) : a.Definite ↔ a.Clear := by
  cases a with
  | smtp backend c => exact smtp_definite_iff honest
  | brevo loads x => exact ⟨fun _ => trivial, fun _ => brevo_definite honest⟩

/-! ### The replies of `smtplib` -/

/-- A code, a lost connection or an overlong line. -/
def Reply.Plain (reply : Reply) : Prop := (∃ n, reply = .code n) ∨ reply = .lost ∨ reply = .tooLong

variable {backend : EmailBackend} {c : Conversation}

/-- The end of `sendmail` once the message was sent. -/
theorem sendMessages_transmitted (h : c.transmitted = true) : backend.sendMessages c =
    match c.dot with
    | .raises failure => if failure.closes then .error failure else backend.close c >>= fun _ => .error failure
    | .code n => if n = 250 then backend.close c >>= fun _ => .ok 1 else
      if (c.refuse n (.response n)).2 then .error (c.refuse n (.response n)).1
      else backend.close c >>= fun _ => .error (c.refuse n (.response n)).1 := by
  unfold Conversation.transmitted at h
  simp only [Bool.and_eq_true, Bool.or_eq_true, decide_eq_true_eq] at h
  obtain ⟨⟨⟨hopened, hmail⟩, hrcpt⟩, hdata⟩ := h
  have hopen : c.opened = .ok () := by
    cases hopened' : c.opened with
    | ok u => rfl
    | error failure =>
      rw [hopened'] at hopened
      cases hopened
  have hsendmail : c.sendmail = match c.dot with
      | .raises failure => .error (failure, failure.closes)
      | .code n => if n ≠ 250 then .error (c.refuse n (.response n)) else .ok () := by
    unfold Conversation.sendmail
    rcases hrcpt with hrcpt | hrcpt <;> simp [hmail, hrcpt, hdata]
  rw [backend.ends hopen, hsendmail]
  cases c.dot with
  | raises failure =>
    cases hcloses : failure.closes with
    | true => simp only [hcloses]; rfl
    | false => simp only [hcloses]; rfl
  | code n =>
    by_cases hn : n = 250
    · simp only [hn]
      rfl
    · simp only [ne_eq, hn, not_false_eq_true, if_true, if_false]
      cases hrefuse : c.refuse n (.response n) with
      | mk failure closed => cases closed <;> rfl

/-- With such replies an outcome is in doubt after an overlong line or a code that is neither 250 nor a refusal. -/
theorem clear_iff_of_plain (hrset : c.rset.Plain) (hquit : c.quit.Plain) (hdot : c.dot.Plain) :
    (Attempt.smtp backend c).Clear ↔ (c.mayAccept = true → c.dot = .lost ∨ c.dot = .code 250 ∧ c.quit ≠ .tooLong) := by
  refine forall_congr' fun hmayAccept => ?_
  unfold Conversation.mayAccept at hmayAccept
  rw [Bool.and_eq_true] at hmayAccept
  obtain ⟨htransmitted, hreply⟩ := hmayAccept
  rw [sendMessages_transmitted htransmitted]
  have hclose : backend.close c = if c.quit = .tooLong then .error (.response 500) else .ok () := by
    rw [backend.quits]
    rcases hquit with ⟨n, hquit⟩ | hquit | hquit <;> rw [hquit] <;> rfl
  have hverdict : ¬(SmtpFailure.response 500).Undecided := by
    rintro ⟨-, htemporary⟩
    omega
  rcases hdot with ⟨n, hdot⟩ | hdot | hdot
  · simp only [hdot] at hreply ⊢
    by_cases hn : n = 250
    · subst hn
      rw [if_pos rfl, hclose]
      by_cases hlong : c.quit = .tooLong
      · rw [if_pos hlong]
        constructor
        · exact fun hclear => absurd (hclear _ rfl) hverdict
        · rintro (hlost | ⟨-, hne⟩)
          · cases hlost
          · exact absurd hlong hne
      · rw [if_neg hlong]
        exact ⟨fun _ => .inr ⟨rfl, hlong⟩, fun _ failure herror => by cases herror⟩
    · rw [if_neg hn]
      -- Every exception of a refused message is a verdict, whatever follows the reply.
      have hverdict' : ¬(SmtpFailure.response n).Undecided := by
        simp only [Bool.not_eq_true', Bool.and_eq_false_iff, decide_eq_false_iff_not] at hreply
        rintro ⟨hlow, hhigh⟩
        omega
      have hne : n ≠ 421 := by
        simp only [Bool.not_eq_true', Bool.and_eq_false_iff, decide_eq_false_iff_not] at hreply
        omega
      have hrefuse : ∃ failure closed, c.refuse n (.response n) = (failure, closed) ∧ ¬failure.Undecided := by
        unfold Conversation.refuse
        rw [if_neg hne]
        rcases hrset with ⟨m, hrset⟩ | hrset | hrset
        · exact ⟨_, _, by rw [hrset], hverdict'⟩
        · exact ⟨_, _, by rw [hrset]; rfl, hverdict'⟩
        · exact ⟨_, _, by rw [hrset]; rfl, hverdict⟩
      obtain ⟨failure, closed, hrefuse, hfailure⟩ := hrefuse
      rw [hrefuse, hclose]
      constructor
      · intro hclear
        cases closed with
        | true => exact absurd (hclear failure rfl) hfailure
        | false =>
          by_cases hlong : c.quit = .tooLong
          · rw [if_pos hlong] at hclear
            exact absurd (hclear _ rfl) hverdict
          · rw [if_neg hlong] at hclear
            exact absurd (hclear failure rfl) hfailure
      · rintro (hlost | ⟨hcode, -⟩)
        · cases hlost
        · exact absurd (Reply.code.inj hcode) hn
  · simp only [hdot]
    refine ⟨fun _ => .inl trivial, fun _ failure herror => ?_⟩
    cases herror
    trivial
  · simp only [hdot]
    constructor
    · exact fun hclear => absurd (hclear _ rfl) hverdict
    · rintro (hlost | ⟨hcode, -⟩)
      · cases hlost
      · cases hcode

end FireDash.OutboundMail.Providers
