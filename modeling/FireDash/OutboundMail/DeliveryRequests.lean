import FireDash.OutboundMail.ReportDelivery

/-! Report mail over any interleaving of calls and crashes: one send at most for a request, results
that stay, and what a replay returns. -/
namespace FireDash.OutboundMail

open Publications (Time)

variable {s t : DeliveryState} {action : Action}

/-! ### What a step does -/

/-- The request a call has claimed and not finished. -/
def Phase.request : Phase → Option ℕ
  | .claimed request | .prepared request _ | .sending request _ | .decided request _ => some request
  | _ => none

/-- The request a call has claimed and not sent. -/
def Phase.unsent : Phase → Option ℕ
  | .claimed request | .prepared request _ => some request
  | _ => none

/-- The steps that change something. -/
inductive Taken (s : DeliveryState) : Action → DeliveryState → Prop
  | idle {action : Action} : Taken s action s
  | submitted {submission} :
      Taken s (.submit submission) { s with calls := s.calls.insert { submission := submission } }
  | left {id call move phase} (hcall : s.calls.find id = some call)
      (hphase : phase = .missing ∨ phase = .collided ∨ phase = .crashed) (hopen : ∀ result, call.phase ≠ .returned result) :
      Taken s (.move id move) (s.enter id phase)
  | replayed {id call r row} (hcall : s.calls.find id = some call) (hrow : s.requests.find r = some row)
      (hof : row.isOf call.submission = true) (hopen : call.phase = .submitted ∨ call.phase = .collided) :
      Taken s (.move id .get) (s.enter id (.returned (replay row call.submission.recipientPersonnelId)))
  | claimed {id call} (hcall : s.calls.find id = some call) (hopen : call.phase = .missing)
      (hfree : ∀ r row, s.requests.find r = some row → row.isOf call.submission = false) :
      Taken s (.move id .create)
        { s.enter id (.claimed s.requests.nextId) with requests := s.requests.insert call.submission.request }
  | prepared {id call request message env} (hcall : s.calls.find id = some call) (hopen : call.phase = .claimed request) :
      Taken s (.move id (.prepare env)) (s.enter id (.prepared request message))
  | refused {id call request outcome env} (hcall : s.calls.find id = some call) (hopen : call.phase = .claimed request)
      (hfailed : outcome.delivered = false) :
      Taken s (.move id (.prepare env)) (s.enter id (.decided request outcome))
  | sent {id call request message} (hcall : s.calls.find id = some call) (hopen : call.phase = .prepared request message) :
      Taken s (.move id .send) { s.enter id (.sending request s.sends.nextId) with
        sends := s.sends.insert { call := id, request := request, message := message } }
  | answered {id call request send answer} (hcall : s.calls.find id = some call)
      (hopen : call.phase = .sending request send) :
      Taken s (.move id (.answer answer)) { s.enter id (.decided request (answerOutcome answer)) with
        sends := s.sends.modify send fun e => { e with answer := some answer } }
  | written {id call request outcome now} (hcall : s.calls.find id = some call)
      (hopen : call.phase = .decided request outcome) :
      Taken s (.move id (.write now)) (s.write id request outcome now)

theorem get_taken {id : ℕ} {call : Call} (hcall : s.calls.find id = some call)
    (hopen : call.phase = .submitted ∨ call.phase = .collided) : Taken s (.move id .get) (s.get id call) := by
  unfold DeliveryState.get
  split
  · rename_i r row hfirst
    obtain ⟨hrow, hof⟩ := Table.first_eq_some hfirst
    exact .replayed hcall hrow hof hopen
  · refine .left hcall ?_ fun result hreturned => ?_
    · split <;> simp
    · rcases hopen with hphase | hphase <;> rw [hphase] at hreturned <;> cases hreturned

theorem create_taken {id : ℕ} {call : Call} (hcall : s.calls.find id = some call) (hopen : call.phase = .missing) :
    Taken s (.move id .create) (s.create id call) := by
  unfold DeliveryState.create
  split
  · refine .left hcall (.inr (.inl rfl)) fun result hreturned => ?_
    rw [hopen] at hreturned
    cases hreturned
  · rename_i hnone
    rw [Bool.not_eq_true, Table.any_eq_false] at hnone
    exact .claimed hcall hopen hnone

theorem prepare_taken {id request : ℕ} {call : Call} {env : DeliveryEnv} (hcall : s.calls.find id = some call)
    (hopen : call.phase = .claimed request) : Taken s (.move id (.prepare env)) (s.prepare id call request env) := by
  unfold DeliveryState.prepare
  split
  · rename_i outcome herror
    exact .refused hcall hopen (prepareDelivery_not_delivered herror)
  · exact .prepared hcall hopen

theorem step_taken (s : DeliveryState) (action : Action) : Taken s action (s.step action) := by
  cases action with
  | submit submission => exact .submitted
  | move id move =>
    cases hcall : s.calls.find id with
    | none =>
      simp only [DeliveryState.step, hcall]
      exact .idle
    | some call =>
      simp only [DeliveryState.step, hcall]
      unfold DeliveryState.advance
      split
      · exact get_taken hcall (.inl ‹_›)
      · exact get_taken hcall (.inr ‹_›)
      · exact create_taken hcall ‹_›
      · exact prepare_taken hcall ‹_›
      · exact .sent hcall ‹_›
      · exact .answered hcall ‹_›
      · exact .written hcall ‹_›
      · exact .idle
      · rename_i hopen
        exact .left hcall (.inr (.inr rfl)) fun result hreturned => hopen result hreturned
      · exact .idle

/-! ### The invariant -/

/-- Some send for a request returned a `MailSendResult`. -/
def DeliveryState.Accepted (s : DeliveryState) (request : ℕ) : Prop :=
  ∃ k e result, s.sends.find k = some e ∧ e.request = request ∧ e.answer = some (.result result)

/-- What a call of a recipient returned agrees with the request. -/
def Answers (row : TabletReportDeliveryRequest) (recipient : ℕ) (result : TabletReportDeliveryResult) : Prop :=
  if row.recipientPersonnelId = recipient then
    result = ⟨.request .unknown, .deliveryIndeterminate⟩ ∨
      row.state ≠ .processing ∧ result = ⟨.request row.state, .outcome row.resultCode⟩
  else result = ⟨.conflict, .idempotencyConflict⟩

structure Sound (s : DeliveryState) : Prop where
  single : ∀ {i j a b}, s.requests.find i = some a → s.requests.find j = some b → a.installation = b.installation →
    a.deliveryRequestId = b.deliveryRequestId → i = j
  held : ∀ {i call r}, s.calls.find i = some call → call.phase.request = some r →
    s.requests.find r = some call.submission.request
  owner : ∀ {i j a b r}, s.calls.find i = some a → s.calls.find j = some b → a.phase.request = some r →
    b.phase.request = some r → i = j
  sender : ∀ {k e}, s.sends.find k = some e → ∃ call row, s.calls.find e.call = some call ∧
    s.requests.find e.request = some row ∧ row.isOf call.submission = true ∧
    row.recipientPersonnelId = call.submission.recipientPersonnelId
  once : ∀ {k l e f}, s.sends.find k = some e → s.sends.find l = some f → e.request = f.request → k = l
  unsent : ∀ {i call r}, s.calls.find i = some call → call.phase.unsent = some r →
    ∀ k e, s.sends.find k = some e → e.request ≠ r
  sending : ∀ {i call r k}, s.calls.find i = some call → call.phase = .sending r k →
    ∃ e, s.sends.find k = some e ∧ e.request = r ∧ e.answer = none
  decided : ∀ {i call r outcome}, s.calls.find i = some call → call.phase = .decided r outcome →
    outcome.delivered = true → s.Accepted r
  success : ∀ {r row}, s.requests.find r = some row → row.state = .success → s.Accepted r
  returned : ∀ {i call result}, s.calls.find i = some call → call.phase = .returned result →
    ∃ r row, s.requests.find r = some row ∧ row.isOf call.submission = true ∧
      Answers row call.submission.recipientPersonnelId result

theorem isOf_iff {row : TabletReportDeliveryRequest} {submission : Submission} : row.isOf submission = true ↔
    row.installation = submission.installation ∧ row.deliveryRequestId = submission.deliveryRequestId := by
  simp [TabletReportDeliveryRequest.isOf]

theorem replay_answers (row : TabletReportDeliveryRequest) (recipient : ℕ) : Answers row recipient (replay row recipient) := by
  unfold Answers replay
  by_cases hrecipient : row.recipientPersonnelId = recipient
  · rw [if_pos hrecipient, if_neg (not_not_intro hrecipient)]
    by_cases hstate : row.state = .processing
    · rw [if_pos hstate]
      exact .inl rfl
    · rw [if_neg hstate]
      exact .inr ⟨hstate, rfl⟩
  · rw [if_neg hrecipient, if_pos hrecipient]

theorem find_enter_cases {id i : ℕ} {call c : Call} {phase : Phase} (hcall : s.calls.find id = some call)
    (hc : (s.enter id phase).calls.find i = some c) :
    i = id ∧ c = { call with phase := phase } ∨ i ≠ id ∧ s.calls.find i = some c :=
  Table.find_modify_cases hcall hc

/-- A call stays, with what it submitted. -/
theorem find_enter {i : ℕ} {c : Call} (id : ℕ) (hc : s.calls.find i = some c) (phase : Phase) :
    ∃ c', (s.enter id phase).calls.find i = some c' ∧ c'.submission = c.submission := by
  unfold DeliveryState.enter
  rw [Table.find_modify]
  by_cases hid : id = i
  · subst hid
    rw [if_pos rfl, hc]
    exact ⟨_, rfl, rfl⟩
  · rw [if_neg hid]
    exact ⟨c, hc, rfl⟩

/-- A call whose new phase holds no more than the old one. -/
theorem Sound.enter {id : ℕ} {call : Call} {phase : Phase} (h : Sound s) (hcall : s.calls.find id = some call)
    (hrequest : ∀ r, phase.request = some r → call.phase.request = some r)
    (hunsent : ∀ r, phase.unsent = some r → call.phase.unsent = some r)
    (hsending : ∀ r k, phase ≠ .sending r k)
    (hdecided : ∀ r outcome, phase = .decided r outcome → outcome.delivered = true → s.Accepted r)
    (hreturned : ∀ result, phase = .returned result → ∃ r row, s.requests.find r = some row ∧
      row.isOf call.submission = true ∧ Answers row call.submission.recipientPersonnelId result) :
    Sound (s.enter id phase) := by
  have hold : ∀ {i c}, (s.enter id phase).calls.find i = some c → ∃ c₀, s.calls.find i = some c₀ ∧
      c₀.submission = c.submission ∧ (∀ r, c.phase.request = some r → c₀.phase.request = some r) ∧
      ∀ r, c.phase.unsent = some r → c₀.phase.unsent = some r := by
    intro i c hc
    rcases find_enter_cases hcall hc with ⟨rfl, rfl⟩ | ⟨-, hc⟩
    · exact ⟨call, hcall, rfl, hrequest, hunsent⟩
    · exact ⟨c, hc, rfl, fun _ hr => hr, fun _ hr => hr⟩
  constructor
  case single => exact h.single
  case held =>
    intro i c r hc hr
    obtain ⟨c₀, hc₀, hsame, hreq, -⟩ := hold hc
    have hrow := h.held hc₀ (hreq r hr)
    rwa [hsame] at hrow
  case owner =>
    intro i j a b r ha hb hra hrb
    obtain ⟨a₀, ha₀, -, hreqa, -⟩ := hold ha
    obtain ⟨b₀, hb₀, -, hreqb, -⟩ := hold hb
    exact h.owner ha₀ hb₀ (hreqa r hra) (hreqb r hrb)
  case sender =>
    intro k e he
    obtain ⟨c, row, hc, hrow, hof, hrecipient⟩ := h.sender he
    obtain ⟨c', hc', hsame⟩ := find_enter id hc phase
    exact ⟨c', row, hc', hrow, by rw [hsame]; exact hof, by rw [hsame]; exact hrecipient⟩
  case once => exact h.once
  case unsent =>
    intro i c r hc hr
    obtain ⟨c₀, hc₀, -, -, huns⟩ := hold hc
    exact h.unsent hc₀ (huns r hr)
  case sending =>
    intro i c r k hc hphase
    rcases find_enter_cases hcall hc with ⟨rfl, rfl⟩ | ⟨-, hc⟩
    · exact absurd hphase (hsending r k)
    · exact h.sending hc hphase
  case decided =>
    intro i c r outcome hc hphase hdelivered
    rcases find_enter_cases hcall hc with ⟨rfl, rfl⟩ | ⟨-, hc⟩
    · exact hdecided r outcome hphase hdelivered
    · exact h.decided hc hphase hdelivered
  case success => exact h.success
  case returned =>
    intro i c result hc hphase
    rcases find_enter_cases hcall hc with ⟨rfl, rfl⟩ | ⟨-, hc⟩
    · exact hreturned result hphase
    · exact h.returned hc hphase

theorem Sound.submitted {submission : Submission} (h : Sound s) :
    Sound { s with calls := s.calls.insert { submission := submission } } := by
  constructor
  case single => exact h.single
  case held =>
    intro i c r hc hr
    rcases Table.find_insert_cases hc with ⟨-, rfl⟩ | hc
    · cases hr
    · exact h.held hc hr
  case owner =>
    intro i j a b r ha hb hra hrb
    rcases Table.find_insert_cases ha with ⟨-, rfl⟩ | ha
    · cases hra
    rcases Table.find_insert_cases hb with ⟨-, rfl⟩ | hb
    · cases hrb
    exact h.owner ha hb hra hrb
  case sender =>
    intro k e he
    obtain ⟨c, row, hc, hrest⟩ := h.sender he
    refine ⟨c, row, ?_, hrest⟩
    rw [Table.find_insert, if_neg (Table.lt_nextId_of_find hc).ne]
    exact hc
  case once => exact h.once
  case unsent =>
    intro i c r hc hr
    rcases Table.find_insert_cases hc with ⟨-, rfl⟩ | hc
    · cases hr
    · exact h.unsent hc hr
  case sending =>
    intro i c r k hc hphase
    rcases Table.find_insert_cases hc with ⟨-, rfl⟩ | hc
    · cases hphase
    · exact h.sending hc hphase
  case decided =>
    intro i c r outcome hc hphase
    rcases Table.find_insert_cases hc with ⟨-, rfl⟩ | hc
    · cases hphase
    · exact h.decided hc hphase
  case success => exact h.success
  case returned =>
    intro i c result hc hphase
    rcases Table.find_insert_cases hc with ⟨-, rfl⟩ | hc
    · cases hphase
    · exact h.returned hc hphase

/-- The call that inserts the row of its key holds a request no send is for. -/
theorem Sound.claimed {id : ℕ} {call : Call} (h : Sound s) (hcall : s.calls.find id = some call)
    (hfree : ∀ r row, s.requests.find r = some row → row.isOf call.submission = false) :
    Sound { s.enter id (.claimed s.requests.nextId) with requests := s.requests.insert call.submission.request } := by
  have hkept : ∀ {r row}, s.requests.find r = some row →
      (s.requests.insert call.submission.request).find r = some row := by
    intro r row hrow
    rw [Table.find_insert, if_neg (Table.lt_nextId_of_find hrow).ne]
    exact hrow
  have hfresh : ∀ {i c}, s.calls.find i = some c → c.phase.request ≠ some s.requests.nextId := by
    intro i c hc hr
    have hrow := h.held hc hr
    rw [Table.find_nextId] at hrow
    cases hrow
  have hother : ∀ {r row}, s.requests.find r = some row → row.installation = call.submission.installation →
      row.deliveryRequestId ≠ call.submission.deliveryRequestId := by
    intro r row hrow hinstallation hid
    have hof := isOf_iff.mpr ⟨hinstallation, hid⟩
    rw [hfree r row hrow] at hof
    cases hof
  constructor
  case single =>
    intro i j a b ha hb hinstallation hid
    rcases Table.find_insert_cases ha with ⟨rfl, rfl⟩ | ha <;> rcases Table.find_insert_cases hb with ⟨rfl, rfl⟩ | hb
    · rfl
    · exact absurd hid.symm (hother hb hinstallation.symm)
    · exact absurd hid (hother ha hinstallation)
    · exact h.single ha hb hinstallation hid
  case held =>
    intro i c r hc hr
    rcases find_enter_cases hcall hc with ⟨rfl, rfl⟩ | ⟨-, hc⟩
    · cases hr
      simp
    · exact hkept (h.held hc hr)
  case owner =>
    intro i j a b r ha hb hra hrb
    rcases find_enter_cases hcall ha with ⟨rfl, rfl⟩ | ⟨-, ha'⟩ <;>
      rcases find_enter_cases hcall hb with ⟨rfl, rfl⟩ | ⟨-, hb'⟩
    · rfl
    · cases hra
      exact absurd hrb (hfresh hb')
    · cases hrb
      exact absurd hra (hfresh ha')
    · exact h.owner ha' hb' hra hrb
  case sender =>
    intro k e he
    obtain ⟨c, row, hc, hrow, hof, hrecipient⟩ := h.sender he
    obtain ⟨c', hc', hsame⟩ := find_enter id hc (.claimed s.requests.nextId)
    exact ⟨c', row, hc', hkept hrow, by rw [hsame]; exact hof, by rw [hsame]; exact hrecipient⟩
  case once => exact h.once
  case unsent =>
    intro i c r hc hr k e he
    rcases find_enter_cases hcall hc with ⟨rfl, rfl⟩ | ⟨-, hc⟩
    · cases hr
      obtain ⟨-, row, -, hrow, -⟩ := h.sender he
      exact (Table.lt_nextId_of_find hrow).ne
    · exact h.unsent hc hr k e he
  case sending =>
    intro i c r k hc hphase
    rcases find_enter_cases hcall hc with ⟨rfl, rfl⟩ | ⟨-, hc⟩
    · cases hphase
    · exact h.sending hc hphase
  case decided =>
    intro i c r outcome hc hphase
    rcases find_enter_cases hcall hc with ⟨rfl, rfl⟩ | ⟨-, hc⟩
    · cases hphase
    · exact h.decided hc hphase
  case success =>
    intro r row hrow hsuccess
    rcases Table.find_insert_cases hrow with ⟨-, rfl⟩ | hrow
    · cases hsuccess
    · exact h.success hrow hsuccess
  case returned =>
    intro i c result hc hphase
    rcases find_enter_cases hcall hc with ⟨rfl, rfl⟩ | ⟨-, hc⟩
    · cases hphase
    · obtain ⟨r, row, hrow, hrest⟩ := h.returned hc hphase
      exact ⟨r, row, hkept hrow, hrest⟩

/-- A send of a request that has none. -/
theorem Sound.sent {id request : ℕ} {call : Call} {message : OutboundMessage} (h : Sound s)
    (hcall : s.calls.find id = some call) (hopen : call.phase = .prepared request message) :
    Sound { s.enter id (.sending request s.sends.nextId) with
      sends := s.sends.insert { call := id, request := request, message := message } } := by
  have hunsent : ∀ k e, s.sends.find k = some e → e.request ≠ request := h.unsent hcall (by rw [hopen]; rfl)
  have hheld : s.requests.find request = some call.submission.request := h.held hcall (by rw [hopen]; rfl)
  have hkept : ∀ {k e}, s.sends.find k = some e →
      (s.sends.insert { call := id, request := request, message := message }).find k = some e := by
    intro k e he
    rw [Table.find_insert, if_neg (Table.lt_nextId_of_find he).ne]
    exact he
  have haccepted : ∀ {r}, s.Accepted r → DeliveryState.Accepted { s.enter id (.sending request s.sends.nextId) with
      sends := s.sends.insert { call := id, request := request, message := message } } r := by
    rintro r ⟨k, e, result, he, hrest⟩
    exact ⟨k, e, result, hkept he, hrest⟩
  constructor
  case single => exact h.single
  case held =>
    intro i c r hc hr
    rcases find_enter_cases hcall hc with ⟨rfl, rfl⟩ | ⟨-, hc⟩
    · cases hr
      exact hheld
    · exact h.held hc hr
  case owner =>
    intro i j a b r ha hb hra hrb
    have hself : call.phase.request = some request := by rw [hopen]; rfl
    rcases find_enter_cases hcall ha with ⟨rfl, rfl⟩ | ⟨-, ha'⟩ <;>
      rcases find_enter_cases hcall hb with ⟨rfl, rfl⟩ | ⟨-, hb'⟩
    · rfl
    · cases hra
      exact h.owner hcall hb' hself hrb
    · cases hrb
      exact h.owner ha' hcall hra hself
    · exact h.owner ha' hb' hra hrb
  case sender =>
    intro k e he
    rcases Table.find_insert_cases he with ⟨-, rfl⟩ | he
    · obtain ⟨c', hc', hsame⟩ := find_enter id hcall (.sending request s.sends.nextId)
      refine ⟨c', _, hc', hheld, ?_, ?_⟩
      · rw [hsame]
        exact isOf_iff.mpr ⟨rfl, rfl⟩
      · rw [hsame]
        rfl
    · obtain ⟨c, row, hc, hrow, hof, hrecipient⟩ := h.sender he
      obtain ⟨c', hc', hsame⟩ := find_enter id hc (.sending request s.sends.nextId)
      exact ⟨c', row, hc', hrow, by rw [hsame]; exact hof, by rw [hsame]; exact hrecipient⟩
  case once =>
    intro k l e f he hf hrequest
    rcases Table.find_insert_cases he with ⟨rfl, rfl⟩ | he <;> rcases Table.find_insert_cases hf with ⟨rfl, rfl⟩ | hf
    · rfl
    · exact absurd hrequest.symm (hunsent _ _ hf)
    · exact absurd hrequest (hunsent _ _ he)
    · exact h.once he hf hrequest
  case unsent =>
    intro i c r hc hr k e he
    rcases find_enter_cases hcall hc with ⟨rfl, rfl⟩ | ⟨hne, hc⟩
    · cases hr
    rcases Table.find_insert_cases he with ⟨-, rfl⟩ | he
    · intro hsame
      have hself : call.phase.request = some request := by rw [hopen]; rfl
      refine hne (h.owner hc hcall ?_ hself)
      rw [show request = r from hsame]
      cases hphase : c.phase <;> rw [hphase] at hr <;> cases hr <;> rfl
    · exact h.unsent hc hr k e he
  case sending =>
    intro i c r k hc hphase
    rcases find_enter_cases hcall hc with ⟨rfl, rfl⟩ | ⟨-, hc⟩
    · cases hphase
      exact ⟨_, by rw [Table.find_insert, if_pos rfl], rfl, rfl⟩
    · obtain ⟨e, he, hrest⟩ := h.sending hc hphase
      exact ⟨e, hkept he, hrest⟩
  case decided =>
    intro i c r outcome hc hphase hdelivered
    rcases find_enter_cases hcall hc with ⟨rfl, rfl⟩ | ⟨-, hc⟩
    · cases hphase
    · exact haccepted (h.decided hc hphase hdelivered)
  case success => exact fun hrow hsuccess => haccepted (h.success hrow hsuccess)
  case returned =>
    intro i c result hc hphase
    rcases find_enter_cases hcall hc with ⟨rfl, rfl⟩ | ⟨-, hc⟩
    · cases hphase
    · exact h.returned hc hphase

/-- The answer of a send; a `MailSendResult` is the only one that is a delivery. -/
theorem Sound.answered {id request send : ℕ} {call : Call} {answer : SendAnswer} (h : Sound s)
    (hcall : s.calls.find id = some call) (hopen : call.phase = .sending request send) :
    Sound { s.enter id (.decided request (answerOutcome answer)) with
      sends := s.sends.modify send fun e => { e with answer := some answer } } := by
  have hself : call.phase.request = some request := by rw [hopen]; rfl
  have hheld := h.held hcall hself
  obtain ⟨e₀, he₀, hrequest₀, hnone₀⟩ := h.sending hcall hopen
  have hcases : ∀ {k e}, (s.sends.modify send fun e => { e with answer := some answer }).find k = some e →
      ∃ e', s.sends.find k = some e' ∧ e'.request = e.request ∧ e'.call = e.call := by
    intro k e he
    rcases Table.find_modify_cases he₀ he with ⟨rfl, rfl⟩ | ⟨-, he⟩
    · exact ⟨e₀, he₀, rfl, rfl⟩
    · exact ⟨e, he, rfl, rfl⟩
  have haccepted : ∀ {r}, s.Accepted r →
      DeliveryState.Accepted { s.enter id (.decided request (answerOutcome answer)) with
        sends := s.sends.modify send fun e => { e with answer := some answer } } r := by
    rintro r ⟨k, e, result, he, hrequest, hanswer⟩
    refine ⟨k, e, result, ?_, hrequest, hanswer⟩
    by_cases hk : send = k
    · subst hk
      rw [he₀] at he
      cases he
      rw [hnone₀] at hanswer
      cases hanswer
    · rw [Table.find_modify, if_neg hk]
      exact he
  constructor
  case single => exact h.single
  case held =>
    intro i c r hc hr
    rcases find_enter_cases hcall hc with ⟨rfl, rfl⟩ | ⟨-, hc⟩
    · cases hr
      exact hheld
    · exact h.held hc hr
  case owner =>
    intro i j a b r ha hb hra hrb
    rcases find_enter_cases hcall ha with ⟨rfl, rfl⟩ | ⟨-, ha'⟩ <;>
      rcases find_enter_cases hcall hb with ⟨rfl, rfl⟩ | ⟨-, hb'⟩
    · rfl
    · cases hra
      exact h.owner hcall hb' hself hrb
    · cases hrb
      exact h.owner ha' hcall hra hself
    · exact h.owner ha' hb' hra hrb
  case sender =>
    intro k e he
    obtain ⟨e', he', hrequest, hcaller⟩ := hcases he
    obtain ⟨c, row, hc, hrow, hof, hrecipient⟩ := h.sender he'
    obtain ⟨c', hc', hsame⟩ := find_enter id hc (.decided request (answerOutcome answer))
    rw [hcaller] at hc'
    rw [hrequest] at hrow
    exact ⟨c', row, hc', hrow, by rw [hsame]; exact hof, by rw [hsame]; exact hrecipient⟩
  case once =>
    intro k l e f he hf hrequest
    obtain ⟨e', he', hsame, -⟩ := hcases he
    obtain ⟨f', hf', hsame', -⟩ := hcases hf
    exact h.once he' hf' (hsame.trans (hrequest.trans hsame'.symm))
  case unsent =>
    intro i c r hc hr k e he
    rcases find_enter_cases hcall hc with ⟨rfl, rfl⟩ | ⟨-, hc⟩
    · cases hr
    · obtain ⟨e', he', hsame, -⟩ := hcases he
      rw [← hsame]
      exact h.unsent hc hr k e' he'
  case sending =>
    intro i c r k hc hphase
    rcases find_enter_cases hcall hc with ⟨rfl, rfl⟩ | ⟨hne, hc⟩
    · cases hphase
    · obtain ⟨e, he, hrequest, hnone⟩ := h.sending hc hphase
      refine ⟨e, ?_, hrequest, hnone⟩
      rw [Table.find_modify, if_neg]
      · exact he
      · intro hk
        rw [← hk, he₀] at he
        cases he
        rw [hrequest₀] at hrequest
        exact hne (h.owner hc hcall (by rw [hphase]; rfl) (by rw [hself, hrequest]))
  case decided =>
    intro i c r outcome hc hphase hdelivered
    rcases find_enter_cases hcall hc with ⟨rfl, rfl⟩ | ⟨-, hc⟩
    · cases hphase
      obtain ⟨result, rfl⟩ := answerOutcome_delivered hdelivered
      exact ⟨send, { e₀ with answer := some (.result result) }, result, by simp [he₀], hrequest₀, rfl⟩
    · exact haccepted (h.decided hc hphase hdelivered)
  case success => exact fun hrow hsuccess => haccepted (h.success hrow hsuccess)
  case returned =>
    intro i c result hc hphase
    rcases find_enter_cases hcall hc with ⟨rfl, rfl⟩ | ⟨-, hc⟩
    · cases hphase
    · exact h.returned hc hphase

theorem terminal_answers {row : TabletReportDeliveryRequest} {recipient : ℕ}
    (hrecipient : row.recipientPersonnelId = recipient) (hterminal : row.state ≠ .processing) :
    Answers row recipient ⟨.request row.state, .outcome row.resultCode⟩ := by
  unfold Answers
  rw [if_pos hrecipient]
  exact .inr ⟨hterminal, rfl⟩

theorem recorded_answers {row : TabletReportDeliveryRequest} {recipient : ℕ} {result : TabletReportDeliveryResult}
    {outcome : ReportDeliveryOutcome} {now : Time} (hstate : row.state = .processing) (h : Answers row recipient result) :
    Answers (row.recorded outcome now) recipient result := by
  unfold Answers at h ⊢
  by_cases hrecipient : row.recipientPersonnelId = recipient
  · rw [if_pos hrecipient] at h
    rw [if_pos (show (row.recorded outcome now).recipientPersonnelId = recipient from hrecipient)]
    rcases h with hunknown | ⟨hterminal, -⟩
    · exact .inl hunknown
    · exact absurd hstate hterminal
  · rw [if_neg hrecipient] at h
    rw [if_neg (show (row.recorded outcome now).recipientPersonnelId ≠ recipient from hrecipient)]
    exact h

/-- The result of the call that claimed a request is the one of the request. -/
theorem Sound.written {id request : ℕ} {call : Call} {outcome : ReportDeliveryOutcome} {now : Time} (h : Sound s)
    (hcall : s.calls.find id = some call) (hopen : call.phase = .decided request outcome) :
    Sound (s.write id request outcome now) := by
  have hself : call.phase.request = some request := by rw [hopen]; rfl
  have hheld := h.held hcall hself
  have hcases : ∀ {r row}, (s.requests.modify request fun row => row.recorded outcome now).find r = some row →
      r = request ∧ row = call.submission.request.recorded outcome now ∨ r ≠ request ∧ s.requests.find r = some row := by
    intro r row hrow
    exact Table.find_modify_cases hheld hrow
  have hkept : ∀ {r row}, s.requests.find r = some row → ∃ row',
      (s.requests.modify request fun row => row.recorded outcome now).find r = some row' ∧
        row'.installation = row.installation ∧ row'.deliveryRequestId = row.deliveryRequestId ∧
        row'.recipientPersonnelId = row.recipientPersonnelId ∧
        ∀ recipient result, Answers row recipient result → Answers row' recipient result := by
    intro r row hrow
    by_cases hr : request = r
    · subst hr
      rw [hheld] at hrow
      cases hrow
      exact ⟨call.submission.request.recorded outcome now, by simp [hheld], rfl, rfl, rfl, fun _ _ => recorded_answers rfl⟩
    · exact ⟨row, by simp [hr, hrow], rfl, rfl, rfl, fun _ _ hanswers => hanswers⟩
  have hback : ∀ {r row}, (s.requests.modify request fun row => row.recorded outcome now).find r = some row →
      ∃ row', s.requests.find r = some row' ∧ row'.installation = row.installation ∧
        row'.deliveryRequestId = row.deliveryRequestId := by
    intro r row hrow
    rcases hcases hrow with ⟨rfl, rfl⟩ | ⟨-, hrow⟩
    · exact ⟨_, hheld, rfl, rfl⟩
    · exact ⟨row, hrow, rfl, rfl⟩
  constructor
  case single =>
    intro i j a b ha hb hinstallation hid
    obtain ⟨a', ha', hia, hda⟩ := hback ha
    obtain ⟨b', hb', hib, hdb⟩ := hback hb
    exact h.single ha' hb' (by rw [hia, hib, hinstallation]) (by rw [hda, hdb, hid])
  case held =>
    intro i c r hc hr
    rcases find_enter_cases hcall hc with ⟨rfl, rfl⟩ | ⟨hne, hc⟩
    · cases hr
    · have hother : request ≠ r := by
        rintro rfl
        exact hne (h.owner hc hcall hr hself)
      change (s.requests.modify request fun row => row.recorded outcome now).find r = _
      rw [Table.find_modify, if_neg hother]
      exact h.held hc hr
  case owner =>
    intro i j a b r ha hb hra hrb
    rcases find_enter_cases hcall ha with ⟨rfl, rfl⟩ | ⟨-, ha'⟩
    · cases hra
    rcases find_enter_cases hcall hb with ⟨rfl, rfl⟩ | ⟨-, hb'⟩
    · cases hrb
    exact h.owner ha' hb' hra hrb
  case sender =>
    intro k e he
    obtain ⟨c, row, hc, hrow, hof, hrecipient⟩ := h.sender he
    obtain ⟨c', hc', hsame⟩ :=
      find_enter id hc (.returned ⟨.request (terminalState outcome), .outcome (some outcome.code)⟩)
    obtain ⟨row', hrow', hinstallation, hid, hto, -⟩ := hkept hrow
    refine ⟨c', row', hc', hrow', ?_, ?_⟩
    · rw [hsame, isOf_iff, hinstallation, hid]
      exact isOf_iff.mp hof
    · rw [hsame, hto]
      exact hrecipient
  case once => exact h.once
  case unsent =>
    intro i c r hc hr
    rcases find_enter_cases hcall hc with ⟨rfl, rfl⟩ | ⟨-, hc⟩
    · cases hr
    · exact h.unsent hc hr
  case sending =>
    intro i c r k hc hphase
    rcases find_enter_cases hcall hc with ⟨rfl, rfl⟩ | ⟨-, hc⟩
    · cases hphase
    · exact h.sending hc hphase
  case decided =>
    intro i c r outcome' hc hphase hdelivered
    rcases find_enter_cases hcall hc with ⟨rfl, rfl⟩ | ⟨-, hc⟩
    · cases hphase
    · exact h.decided hc hphase hdelivered
  case success =>
    intro r row hrow hsuccess
    rcases hcases hrow with ⟨rfl, rfl⟩ | ⟨-, hrow⟩
    · exact h.decided hcall hopen (delivered_of_terminalState hsuccess)
    · exact h.success hrow hsuccess
  case returned =>
    intro i c result hc hphase
    rcases find_enter_cases hcall hc with ⟨rfl, rfl⟩ | ⟨-, hc⟩
    · cases hphase
      refine ⟨request, call.submission.request.recorded outcome now, ?_, isOf_iff.mpr ⟨rfl, rfl⟩, ?_⟩
      · change (s.requests.modify request fun row => row.recorded outcome now).find request = _
        simp [hheld]
      · exact @terminal_answers (call.submission.request.recorded outcome now) _ rfl
          (terminalState_ne_processing outcome)
    · obtain ⟨r, row, hrow, hof, hanswers⟩ := h.returned hc hphase
      obtain ⟨row', hrow', hinstallation, hid, -, hstays⟩ := hkept hrow
      refine ⟨r, row', hrow', ?_, hstays _ _ hanswers⟩
      rw [isOf_iff, hinstallation, hid]
      exact isOf_iff.mp hof

/-! ### Every run -/

theorem Sound.step (h : Sound s) (hs : Taken s action t) : Sound t := by
  cases hs with
  | idle => exact h
  | submitted => exact h.submitted
  | left hcall hphase hopen =>
    refine h.enter hcall ?_ ?_ ?_ ?_ ?_ <;> rcases hphase with rfl | rfl | rfl <;> nofun
  | @replayed id call r row hcall hrow hof hopen =>
    refine h.enter hcall nofun nofun nofun nofun fun result hresult => ?_
    cases hresult
    exact ⟨r, row, hrow, hof, replay_answers row _⟩
  | claimed hcall hopen hfree => exact h.claimed hcall hfree
  | prepared hcall hopen =>
    refine h.enter hcall ?_ ?_ nofun nofun nofun
    · rw [hopen]
      exact fun r hr => hr
    · rw [hopen]
      exact fun r hr => hr
  | refused hcall hopen hfailed =>
    refine h.enter hcall ?_ nofun nofun ?_ nofun
    · rw [hopen]
      exact fun r hr => hr
    · intro r outcome hphase hdelivered
      cases hphase
      rw [hfailed] at hdelivered
      cases hdelivered
  | sent hcall hopen => exact h.sent hcall hopen
  | answered hcall hopen => exact h.answered hcall hopen
  | written hcall hopen => exact h.written hcall hopen

theorem sound_of_reachable (h : deliverySystem.Reachable s) : Sound s := by
  refine h.invariant (fun s hs => ?_) (fun s action t hI ht => ?_)
  · obtain ⟨hrequests, hcalls, hsends⟩ := hs
    have hr : s.requests = ⟨[]⟩ := congrArg Table.mk hrequests
    have hc : s.calls = ⟨[]⟩ := congrArg Table.mk hcalls
    have he : s.sends = ⟨[]⟩ := congrArg Table.mk hsends
    constructor <;> simp [hr, hc, he, Table.find]
  · rw [show t = s.step action from ht.symm]
    exact hI.step (step_taken s action)

/-- A step leaves the requests with a result alone. -/
theorem Sound.terminal (h : Sound s) (hs : Taken s action t) {r : ℕ} {row : TabletReportDeliveryRequest}
    (hrow : s.requests.find r = some row) (hterminal : row.state ≠ .processing) : t.requests.find r = some row := by
  cases hs with
  | idle | submitted | left | replayed | prepared | refused | sent | answered => exact hrow
  | claimed hcall hopen hfree =>
    change (s.requests.insert _).find r = some row
    rw [Table.find_insert, if_neg (Table.lt_nextId_of_find hrow).ne]
    exact hrow
  | @written id call request outcome now hcall hopen =>
    have hheld := h.held hcall (show call.phase.request = some request by rw [hopen]; rfl)
    have hother : request ≠ r := by
      rintro rfl
      rw [hheld] at hrow
      cases hrow
      exact hterminal rfl
    change (s.requests.modify request _).find r = some row
    rw [Table.find_modify, if_neg hother]
    exact hrow

theorem terminal_later (h : deliverySystem.Reachable s) (hst : deliverySystem.Later s t) :
    ∀ r row, s.requests.find r = some row → row.state ≠ .processing → t.requests.find r = some row := by
  refine (h.later (R := fun s t => ∀ r row, s.requests.find r = some row → row.state ≠ .processing →
    t.requests.find r = some row) (fun _ _ _ hrow _ => hrow) ?_ ?_ hst).2
  · intro s t u hst htu r row hrow hterminal
    exact htu r row (hst r row hrow hterminal) hterminal
  · intro s action t hreach hstep r row hrow hterminal
    rw [show t = s.step action from hstep.symm]
    exact (sound_of_reachable hreach).terminal (step_taken s action) hrow hterminal

/-- The read of a call that finds the row of its key returns the replay of it and does nothing else. -/
theorem Sound.replays (h : Sound s) {id r : ℕ} {call : Call} {row : TabletReportDeliveryRequest}
    (hcall : s.calls.find id = some call) (hopen : call.phase = .submitted ∨ call.phase = .collided)
    (hrow : s.requests.find r = some row) (hof : row.isOf call.submission = true) :
    s.step (.move id .get) = s.enter id (.returned (replay row call.submission.recipientPersonnelId)) := by
  have hget : s.step (.move id .get) = s.get id call := by
    simp only [DeliveryState.step, hcall, DeliveryState.advance]
    rcases hopen with hphase | hphase <;> rw [hphase]
  rw [hget, DeliveryState.get]
  cases hfirst : s.requests.first fun r => r.isOf call.submission with
  | none =>
    rw [Table.first_eq_none.mp hfirst r row hrow] at hof
    cases hof
  | some found =>
    obtain ⟨k, found⟩ := found
    obtain ⟨hk, hkof⟩ := Table.first_eq_some hfirst
    obtain ⟨hi, hd⟩ := isOf_iff.mp hof
    obtain ⟨hki, hkd⟩ := isOf_iff.mp hkof
    have hsame : k = r := h.single hk hrow (hki.trans hi.symm) (hkd.trans hd.symm)
    rw [hsame, hrow] at hk
    cases hk
    rfl

/-- In every run: one send at most for an installation and a request id, a success only after a send
returned a result, results that stay, calls answered from the request of their key, and no send for
a call of another recipient. -/
theorem report_delivered_once (h : deliverySystem.Reachable s) :
    (∀ k l e f a b, s.sends.find k = some e → s.sends.find l = some f → s.calls.find e.call = some a →
      s.calls.find f.call = some b → a.submission.installation = b.submission.installation →
      a.submission.deliveryRequestId = b.submission.deliveryRequestId → k = l) ∧
    (∀ r row, s.requests.find r = some row → row.state = .success →
      ∃ k e result, s.sends.find k = some e ∧ e.request = r ∧ e.answer = some (.result result)) ∧
    (∀ t, deliverySystem.Later s t → ∀ r row, s.requests.find r = some row → row.state ≠ .processing →
      t.requests.find r = some row) ∧
    (∀ id call result, s.calls.find id = some call → call.phase = .returned result →
      ∃ r row, s.requests.find r = some row ∧ row.isOf call.submission = true ∧
        Answers row call.submission.recipientPersonnelId result) ∧
    (∀ id call r row, s.calls.find id = some call → call.phase = .submitted ∨ call.phase = .collided →
      s.requests.find r = some row → row.isOf call.submission = true →
      s.step (.move id .get) = s.enter id (.returned (replay row call.submission.recipientPersonnelId))) ∧
    (∀ k e call r row, s.sends.find k = some e → s.calls.find e.call = some call → s.requests.find r = some row →
      row.isOf call.submission = true → row.recipientPersonnelId = call.submission.recipientPersonnelId) := by
  have hs := sound_of_reachable h
  refine ⟨?_, fun r row => hs.success, fun t ht => terminal_later h ht, fun id call result => hs.returned,
    fun id call r row => hs.replays, ?_⟩
  · intro k l e f a b he hf ha hb hinstallation hid
    obtain ⟨a', ra, ha', hra, hofa, -⟩ := hs.sender he
    obtain ⟨b', rb, hb', hrb, hofb, -⟩ := hs.sender hf
    obtain rfl := Option.some.inj (ha'.symm.trans ha)
    obtain rfl := Option.some.inj (hb'.symm.trans hb)
    obtain ⟨hia, hda⟩ := isOf_iff.mp hofa
    obtain ⟨hib, hdb⟩ := isOf_iff.mp hofb
    exact hs.once he hf (hs.single hra hrb (by rw [hia, hib, hinstallation]) (by rw [hda, hdb, hid]))
  · intro k e call r row he hcall hrow hof
    obtain ⟨call', row', hcall', hrow', hof', hrecipient⟩ := hs.sender he
    obtain rfl := Option.some.inj (hcall'.symm.trans hcall)
    obtain ⟨hi, hd⟩ := isOf_iff.mp hof
    obtain ⟨hi', hd'⟩ := isOf_iff.mp hof'
    have hsame : e.request = r := hs.single hrow' hrow (hi'.trans hi.symm) (hd'.trans hd.symm)
    rw [hsame, hrow] at hrow'
    cases hrow'
    exact hrecipient

/-! ### A retried delivery -/

def sampleSubmission (recipient : PersonId) : Submission := ⟨0, 0, 4, recipient, []⟩

def sampleDelivery : DeliveryEnv where
  admitOutboundReport _ recipient pdf := .ok ⟨⟨recipient, recipientDisplayName⟩, pdf⟩
  resolveDepartmentMailProvider _ := some (.ok ⟨recipientDisplayName, recipientDisplayName⟩)
  resolveReportRecipient _ recipient := .ok ⟨recipient, recipientDisplayName⟩
  validAddress _ := true

/-- A delivered report, its retry, and a call of the same id for another recipient. -/
def retriedDelivery : List Action :=
  [.submit (sampleSubmission 8), .move 0 .get, .move 0 .create, .move 0 (.prepare sampleDelivery), .move 0 .send,
    .move 0 (.answer (.result ⟨[], none⟩)), .move 0 (.write 3), .submit (sampleSubmission 8), .move 1 .get,
    .submit (sampleSubmission 9), .move 2 .get]

theorem reachable_retriedDelivery : deliverySystem.Reachable (retriedDelivery.foldl DeliveryState.step {}) := by
  have hrun : ∀ (actions : List Action) (s : DeliveryState), deliverySystem.Reachable s →
      deliverySystem.Reachable (actions.foldl DeliveryState.step s) := by
    intro actions
    induction actions with
    | nil => exact fun s h => h
    | cons action rest ih => exact fun s h => ih _ (h.next rfl)
  exact hrun retriedDelivery {} (Machine.Reachable.init ⟨rfl, rfl, rfl⟩)

theorem retriedDelivery_delivered :
    (retriedDelivery.foldl DeliveryState.step {}).calls.rows.map (·.phase) =
        [.returned ⟨.request .success, .outcome (some .delivered)⟩,
          .returned ⟨.request .success, .outcome (some .delivered)⟩, .returned ⟨.conflict, .idempotencyConflict⟩] ∧
      ∃ k e result, (retriedDelivery.foldl DeliveryState.step {}).sends.find k = some e ∧ e.request = 0 ∧
        e.answer = some (.result result) := by
  refine ⟨by decide +kernel, ?_⟩
  have hrow : ((retriedDelivery.foldl DeliveryState.step {}).requests.find 0).map (·.state) = some .success := by
    decide +kernel
  obtain ⟨row, hfind, hstate⟩ := Option.map_eq_some_iff.mp hrow
  exact (report_delivered_once reachable_retriedDelivery).2.1 0 row hfind hstate

end FireDash.OutboundMail
