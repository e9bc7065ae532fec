import FireDash.ReportTransfer.Transfers

/-! What every request does to transfers and portal sessions: a new transfer ends the one before it,
a token opens one session, and a session that is closed is not opened again. -/
namespace FireDash.ReportTransfer

open Json (Text Value)
open Publications (Time DepartmentId minute)
open Delivery (InstallationId)

theorem recipientFor_ok {directory : Directory} {department : DepartmentId} {person : Uuid} {recipient : Recipient}
    (h : recipientFor directory department person = .ok recipient) : recipient.personnelId = person := by
  unfold recipientFor at h
  cases hresolve : resolveReportRecipient directory department person with
  | none => simp [hresolve] at h
  | some recipient' =>
    rw [hresolve] at h
    cases h
    unfold resolveReportRecipient at hresolve
    simp only [bind_eq_some] at hresolve
    obtain ⟨p, hfind, hresolve⟩ := hresolve
    have hperson := List.find?_some hfind
    simp only [decide_eq_true_eq] at hperson
    split at hresolve
    · cases hresolve
    · simp only [bind_eq_some] at hresolve
      obtain ⟨address, -, email, -, hresolve⟩ := hresolve
      split at hresolve
      · cases hresolve
        exact hperson.1
      · cases hresolve

namespace Access

variable {portal : PortalSettings} {s t : Access}

/-! ### What the checks let through -/

theorem checkTransfer_ok {row : Transfer} {department : DepartmentId} (h : s.checkTransfer portal row = .ok department) :
    row.revokedAt = none ∧ row.mailState = .sent := by
  unfold checkTransfer at h
  rw [check_eq_ok] at h
  obtain ⟨hgranted, -⟩ := h
  rw [not_or, not_not, not_not] at hgranted
  exact hgranted

/-- A report that may be read is ready, unexpired and addressed like the transfer. -/
theorem reportAvailable_spec {pk : ℕ} {installation : InstallationId} {recipient : Uuid} {department : DepartmentId}
    (h : s.reportAvailable pk installation recipient department = true) :
    ∃ row, s.store.rows.find pk = some row ∧ row.installation = installation ∧ row.recipient = recipient ∧
      row.state = .ready ∧ s.now < s.store.expiry pk row := by
  unfold reportAvailable at h
  split at h
  · cases h
  · rename_i row hrow
    simp only [decide_eq_true_eq] at h
    obtain ⟨hinstallation, hrecipient, -, -, hready, hexpiry⟩ := h
    exact ⟨row, hrow, hinstallation, hrecipient, hready, hexpiry⟩

/-- A new transfer is within both rates, has a token of its own and no predecessor's dates. -/
structure Admitted (portal : PortalSettings) (s : Access) (installation : InstallationId) (person : Uuid) (token : Text)
    (transfer : Transfer) : Prop where
  installation : transfer.installation = installation
  recipient : transfer.recipient = person
  token : transfer.tokenDigest = tokenDigest portal.settings token
  issuedAt : transfer.issuedAt = s.now
  tokenExpiresAt : transfer.tokenExpiresAt = s.now + 60 * minute
  unused : transfer.consumedAt = none ∧ transfer.revokedAt = none
  hourly : s.hourly transfer.installation < portal.settings.mailsPerHour
  minutely : s.minutely transfer.installation transfer.recipient < portal.settings.mailsPerMinute
  fresh : ∀ {i row}, s.transfers.find i = some row → row.tokenDigest ≠ transfer.tokenDigest

theorem requestTransfer_ok {installation : InstallationId} {requestId person : Uuid} {token : Text} {transfer : Transfer}
    (h : s.requestTransfer portal installation requestId person token = .ok (.inr transfer)) :
    s.Admitted portal installation person token transfer := by
  unfold requestTransfer at h
  rw [bind_eq_ok] at h
  obtain ⟨authorized, -, h⟩ := h
  dsimp only at h
  split at h
  · -- Under a known identity no transfer is created.
    rw [check_eq_ok, bind_eq_ok] at h
    obtain ⟨-, -, -, h⟩ := h
    cases h
  · rw [bind_eq_ok] at h
    obtain ⟨recipient, hrecipient, h⟩ := h
    simp only [check_eq_ok, bind_eq_ok] at h
    obtain ⟨-, -, -, -, hrates, -, hfresh, h⟩ := h
    cases h
    rw [not_or, not_le, not_le] at hrates
    have hfresh : s.transfers.any (fun t => t.tokenDigest = tokenDigest portal.settings token) = false :=
      Bool.eq_false_iff.mpr hfresh
    exact {
      installation := rfl
      recipient := recipientFor_ok hrecipient
      token := rfl
      issuedAt := rfl
      tokenExpiresAt := rfl
      unused := ⟨rfl, rfl⟩
      hourly := hrates.1
      minutely := hrates.2
      fresh := fun hrow => of_decide_eq_false (Table.any_eq_false.mp hfresh _ _ hrow) }

theorem tokenTransfer_ok {token : Text} {id : ℕ} {row : Transfer} (h : s.tokenTransfer portal token = .ok (id, row)) :
    s.transfers.find id = some row ∧ row.tokenDigest = tokenDigest portal.settings token ∧ s.now < row.tokenExpiresAt ∧
      row.revokedAt = none ∧ row.mailState = .sent := by
  unfold tokenTransfer at h
  rw [check_eq_ok] at h
  obtain ⟨-, h⟩ := h
  split at h
  · cases h
  · rename_i id' row' hfirst
    rw [check_eq_ok] at h
    obtain ⟨hvalid, h⟩ := h
    have hreturn : (id', row') = (id, row) := by
      split at h
      · rw [bind_eq_ok] at h
        obtain ⟨_, -, h⟩ := h
        exact pure_eq_ok.mp h
      · exact pure_eq_ok.mp h
    cases hreturn
    obtain ⟨hfind, hdigest⟩ := Table.first_eq_some hfirst
    simp only [decide_eq_true_eq] at hdigest
    simp only [not_or, not_not, not_le] at hvalid
    exact ⟨hfind, hdigest, hvalid⟩

theorem redeem_ok {token : Text} {id : ℕ} (h : s.redeem portal token = .ok id) :
    ∃ row, s.tokenTransfer portal token = .ok (id, row) ∧ row.consumedAt = none := by
  unfold redeem at h
  rw [bind_eq_ok] at h
  obtain ⟨⟨id', row⟩, htoken, h⟩ := h
  simp only [check_eq_ok, bind_eq_ok, not_not] at h
  obtain ⟨hunused, department, -, h⟩ := h
  split at h
  · cases pure_eq_ok.mp h
    exact ⟨row, htoken, hunused⟩
  · cases h

theorem revokeToken_ok {token : Text} {id : ℕ} (h : s.revokeToken portal token = .ok id) :
    ∃ row, s.tokenTransfer portal token = .ok (id, row) := by
  unfold revokeToken at h
  rw [bind_eq_ok] at h
  obtain ⟨⟨id', row⟩, htoken, h⟩ := h
  rw [check_eq_ok] at h
  cases pure_eq_ok.mp h.2
  exact ⟨row, htoken⟩

/-- The session may be used: neither logged out nor idle, with its transfer sent and unrevoked. -/
structure Open (s : Access) (session : PortalSession) : Prop where
  logged_in : session.loggedOutAt = none
  seen : s.now < session.lastSeenAt + 30 * minute
  granted : ∃ transfer, s.transfers.find session.transfer = some transfer ∧ transfer.revokedAt = none

theorem portalContext_ok {web : WebSession} {reportId : Option Uuid} {sessionId id : ℕ} {rows : List ℕ}
    (h : s.portalContext portal web reportId = .ok (sessionId, id, rows)) :
    web.reportPortal = some sessionId ∧ ∃ session transfer, s.sessions.find sessionId = some session ∧ s.Open session ∧
      session.transfer = id ∧ s.transfers.find id = some transfer ∧
      ∀ pk ∈ rows, pk ∈ transfer.submissions ∧
        ∃ row, s.store.rows.find pk = some row ∧ row.state = .ready ∧ s.now < s.store.expiry pk row := by
  unfold portalContext at h
  split at h
  · rename_i sessionId' key hportal hkey
    split at h
    · cases h
    · rename_i session hsession
      split at h
      · cases h
      · rename_i transfer htransfer
        rw [check_eq_ok] at h
        obtain ⟨hvalid, h⟩ := h
        rw [bind_eq_ok] at h
        obtain ⟨department, hcheck, h⟩ := h
        rw [check_eq_ok] at h
        obtain ⟨-, h⟩ := h
        simp only [not_or, not_not, not_le] at hvalid
        have hopen : s.Open session := ⟨hvalid.1, hvalid.2.1, transfer, htransfer, (checkTransfer_ok hcheck).1⟩
        have hreadable : ∀ pk, s.reportAvailable pk transfer.installation transfer.recipient department = true →
            ∃ row, s.store.rows.find pk = some row ∧ row.state = .ready ∧ s.now < s.store.expiry pk row := by
          intro pk hpk
          obtain ⟨row, hrow, -, -, hready, hexpiry⟩ := reportAvailable_spec hpk
          exact ⟨row, hrow, hready, hexpiry⟩
        split at h
        · cases pure_eq_ok.mp h
          refine ⟨hportal, session, transfer, hsession, hopen, rfl, htransfer, fun pk hpk => ?_⟩
          obtain ⟨hmem, hpk⟩ := List.mem_filter.mp hpk
          exact ⟨hmem, hreadable pk hpk⟩
        · rw [check_eq_ok] at h
          obtain ⟨hall, h⟩ := h
          cases pure_eq_ok.mp h
          rw [not_or, not_not, List.all_eq_true] at hall
          refine ⟨hportal, session, transfer, hsession, hopen, rfl, htransfer, fun pk hpk => ?_⟩
          exact ⟨(List.mem_filter.mp hpk).1, hreadable pk (hall.2 pk hpk)⟩
  · cases h

theorem loadPortalSubmission_ok {web : WebSession} {reportId : Uuid} {sessionId pk : ℕ} {document : Value}
    {attachments : List Attachment}
    (h : s.loadPortalSubmission portal web reportId = .ok (sessionId, pk, document, attachments)) :
    ∃ id rows, s.portalContext portal web (some reportId) = .ok (sessionId, id, rows) ∧ pk ∈ rows := by
  unfold loadPortalSubmission at h
  rw [bind_eq_ok] at h
  obtain ⟨⟨sessionId', id, rows⟩, hcontext, h⟩ := h
  dsimp only at h
  split at h
  · cases h
  · split at h
    · cases h
    · rw [check_eq_ok, bind_eq_ok] at h
      obtain ⟨-, content, -, h⟩ := h
      cases pure_eq_ok.mp h
      exact ⟨id, _, hcontext, List.mem_cons_self⟩

/-! ### What a step does -/

/-- What a step that is taken does to transfers and sessions. -/
inductive Taken (portal : PortalSettings) (s : Access) : AccessAction → Access → Prop
  | called (a : AccessAction) (calls : Table Call) : Taken portal s a { s with calls := calls }
  | store {a : Action} {store : Store} (hstep : s.store.step portal.settings a = some store) :
    Taken portal s (.store a) { s with store := store }
  | created {installation : InstallationId} {requestId person : Uuid} {token : Text} {transfer : Transfer}
    (hrequest : s.requestTransfer portal installation requestId person token = .ok (.inr transfer)) :
    Taken portal s (.requestTransfer installation requestId person token) (s.createTransfer transfer)
  | mailed {call id : ℕ} {state : MailState} {code : String} (calls : Table Call) :
    Taken portal s (.recordMail call)
      { s.setTransfer id fun t => { t with mailState := state, mailCode := code } with calls := calls }
  | revoked {a : AccessAction} {id : ℕ} {row : Transfer} (calls : Table Call) (hrow : s.transfers.find id = some row)
    (hrevoked : row.revokedAt = none) : Taken portal s a { s.revoke id with calls := calls }
  | redeemed {call id : ℕ} {token sessionKey sessionDigest : Text} (calls : Table Call)
    (hredeem : s.redeem portal token = .ok id) :
    Taken portal s (.finishRedeem call sessionKey) { s.openSession id sessionDigest with calls := calls }
  | seen {a : AccessAction} {web : WebSession} {reportId : Option Uuid} {sessionId id : ℕ} {rows : List ℕ}
    (calls : Table Call) (hcontext : s.portalContext portal web reportId = .ok (sessionId, id, rows)) :
    Taken portal s a { s.touch sessionId with calls := calls }
  | loggedOut {web : WebSession} {id : ℕ} (hportal : web.reportPortal = some id) :
    Taken portal s (.logout web) (s.setSession id fun session => { session with loggedOutAt := some s.now })

theorem step_taken {a : AccessAction} (hs : s.step portal a = some t) : Taken portal s a t := by
  have hstay : ∀ a, Taken portal s a s := fun a => .called a s.calls
  cases a with
  | store a =>
    simp only [step, Option.map_eq_some_iff] at hs
    obtain ⟨store, hstore, rfl⟩ := hs
    exact .store hstore
  | requestTransfer installation requestId person token =>
    simp only [step] at hs
    split at hs
    · split at hs
      · rename_i transfer hrequest
        cases hs
        exact .created hrequest
      · cases hs
        exact hstay _
    · cases hs
  | sendLink id delivery =>
    simp only [step, bind_eq_some] at hs
    obtain ⟨call, -, hs⟩ := hs
    cases call with
    | send transfer =>
      simp only [bind_eq_some] at hs
      obtain ⟨row, -, hs⟩ := hs
      cases hs
      exact .called _ _
    | _ => cases hs
  | recordMail id =>
    simp only [step, bind_eq_some] at hs
    obtain ⟨call, -, hs⟩ := hs
    cases call with
    | mailed transfer state code =>
      cases hs
      exact .mailed _
    | _ => cases hs
  | revokeTablet installation id =>
    simp only [step] at hs
    split at hs
    · split at hs
      · rename_i t' hrevoke
        cases hs
        unfold revokeTablet at hrevoke
        rw [bind_eq_ok] at hrevoke
        obtain ⟨_, -, hrevoke⟩ := hrevoke
        split at hrevoke
        · cases hrevoke
        · rename_i row hrow
          rw [check_eq_ok] at hrevoke
          obtain ⟨-, hrevoke⟩ := hrevoke
          split at hrevoke
          · rename_i hrevoked
            cases pure_eq_ok.mp hrevoke
            exact .revoked s.calls hrow hrevoked
          · cases pure_eq_ok.mp hrevoke
            exact hstay _
      · cases hs
        exact hstay _
    · cases hs
  | beginRedeem token =>
    simp only [step] at hs
    split at hs <;> cases hs
    · exact .called _ _
    · exact hstay _
  | finishRedeem id sessionKey =>
    simp only [step, bind_eq_some] at hs
    obtain ⟨call, -, hs⟩ := hs
    cases call with
    | redeem token =>
      dsimp only at hs
      split at hs
      · rename_i transfer hredeem
        split at hs <;> cases hs
        exact .redeemed _ hredeem
      · cases hs
        exact .called _ _
    | _ => cases hs
  | beginRevokeToken token =>
    simp only [step] at hs
    split at hs <;> cases hs
    · exact .called _ _
    · exact hstay _
  | finishRevokeToken id =>
    simp only [step, bind_eq_some] at hs
    obtain ⟨call, -, hs⟩ := hs
    cases call with
    | revokeToken token =>
      dsimp only at hs
      split at hs
      · rename_i transfer hrevoke
        split at hs <;> cases hs
        obtain ⟨row, htoken⟩ := revokeToken_ok hrevoke
        obtain ⟨hrow, -, -, hrevoked, -⟩ := tokenTransfer_ok htoken
        exact .revoked _ hrow hrevoked
      · cases hs
        exact .called _ _
    | _ => cases hs
  | openPortal web reportId =>
    simp only [step] at hs
    split at hs
    · rename_i hcontext
      split at hs <;> cases hs
      exact .seen s.calls hcontext
    · cases hs
      exact hstay _
  | loadReport web reportId =>
    simp only [step] at hs
    split at hs
    · split at hs
      · rename_i hload
        split at hs <;> cases hs
        obtain ⟨id, rows, hcontext, -⟩ := loadPortalSubmission_ok hload
        exact .seen s.calls hcontext
      · cases hs
        exact hstay _
    · cases hs
      exact hstay _
  | beginRevokePortal web =>
    simp only [step] at hs
    split at hs
    · rename_i hcontext
      split at hs <;> cases hs
      exact .seen _ hcontext
    · cases hs
      exact hstay _
  | finishRevokePortal id =>
    simp only [step, bind_eq_some] at hs
    obtain ⟨call, -, hs⟩ := hs
    cases call with
    | revokePortal transfer =>
      simp only [bind_eq_some] at hs
      obtain ⟨row, hrow, hs⟩ := hs
      split at hs <;> cases hs
      by_cases hrevoked : row.revokedAt = none
      · rw [if_pos hrevoked]
        exact .revoked _ hrow hrevoked
      · rw [if_neg hrevoked]
        exact .called _ _
    | _ => cases hs
  | logout web =>
    simp only [step] at hs
    split at hs <;> cases hs
    · rename_i hportal
      exact .loggedOut hportal
    · exact hstay _

end Access

/-! ### Write-once dates -/

/-- What a transfer may become: its dates are written once. -/
structure Transfer.Follows (a b : Transfer) : Prop where
  installation : b.installation = a.installation
  recipient : b.recipient = a.recipient
  submissions : b.submissions = a.submissions
  tokenDigest : b.tokenDigest = a.tokenDigest
  issuedAt : b.issuedAt = a.issuedAt
  tokenExpiresAt : b.tokenExpiresAt = a.tokenExpiresAt
  consumed : a.consumedAt ≠ none → b.consumedAt = a.consumedAt
  revoked : a.revokedAt ≠ none → b.revokedAt = a.revokedAt

theorem Transfer.Follows.refl (a : Transfer) : a.Follows a := by
  constructor <;> intros <;> rfl

theorem Transfer.Follows.trans {a b c : Transfer} (h : a.Follows b) (h' : b.Follows c) : a.Follows c where
  installation := h'.installation.trans h.installation
  recipient := h'.recipient.trans h.recipient
  submissions := h'.submissions.trans h.submissions
  tokenDigest := h'.tokenDigest.trans h.tokenDigest
  issuedAt := h'.issuedAt.trans h.issuedAt
  tokenExpiresAt := h'.tokenExpiresAt.trans h.tokenExpiresAt
  consumed ha := by
    have hb := h.consumed ha
    rw [h'.consumed (by rw [hb]; exact ha), hb]
  revoked ha := by
    have hb := h.revoked ha
    rw [h'.revoked (by rw [hb]; exact ha), hb]

theorem Transfer.follows_revoke {a : Transfer} (at' : Time) (h : a.revokedAt = none) :
    a.Follows { a with revokedAt := some at' } :=
  { Transfer.Follows.refl a with revoked := fun hne => absurd h hne }

theorem Transfer.follows_consume {a : Transfer} (at' : Time) (h : a.consumedAt = none) :
    a.Follows { a with consumedAt := some at' } :=
  { Transfer.Follows.refl a with consumed := fun hne => absurd h hne }

/-- What a session may become by a step at `now`: an idle one is not seen again. -/
structure PortalSession.Follows (now : Time) (a b : PortalSession) : Prop where
  transfer : b.transfer = a.transfer
  sessionDigest : b.sessionDigest = a.sessionDigest
  logged_out : a.loggedOutAt ≠ none → b.loggedOutAt ≠ none
  idle : a.lastSeenAt + 30 * minute ≤ now → b.lastSeenAt = a.lastSeenAt

theorem PortalSession.Follows.refl (now : Time) (a : PortalSession) : a.Follows now a := ⟨rfl, rfl, id, fun _ => rfl⟩

theorem PortalSession.Follows.trans {now : Time} {a b c : PortalSession} (h : a.Follows now b) (h' : b.Follows now c) :
    a.Follows now c where
  transfer := h'.transfer.trans h.transfer
  sessionDigest := h'.sessionDigest.trans h.sessionDigest
  logged_out ha := h'.logged_out (h.logged_out ha)
  idle ha := by
    have hb := h.idle ha
    rw [h'.idle (by rw [hb]; exact ha), hb]

theorem PortalSession.Follows.mono {now now' : Time} {a b : PortalSession} (h : a.Follows now' b) (hnow : now ≤ now') :
    a.Follows now b :=
  ⟨h.transfer, h.sessionDigest, h.logged_out, fun ha => h.idle (ha.trans hnow)⟩

namespace Access

variable {portal : PortalSettings} {s t : Access}

/-- How transfers and sessions go on. -/
structure Advances (s t : Access) : Prop where
  now_le : s.now ≤ t.now
  transfers : Table.Evolve Transfer.Follows (fun _ => True) s.transfers t.transfers
  sessions : Table.Evolve (PortalSession.Follows s.now) (fun _ => True) s.sessions t.sessions

theorem Advances.refl (s : Access) : s.Advances s := ⟨le_rfl, .refl .refl, .refl (.refl _)⟩

theorem Advances.trans {u : Access} (h : s.Advances t) (h' : t.Advances u) : s.Advances u where
  now_le := h.now_le.trans h'.now_le
  transfers := h.transfers.trans Transfer.Follows.trans (fun _ _ => trivial) h'.transfers
  sessions := by
    have hlater := h'.sessions.imp fun _ _ hab => hab.mono h.now_le
    exact h.sessions.trans PortalSession.Follows.trans (fun _ _ => trivial) hlater

/-- Transfers keep their tokens apart, an older one for the same recipient is revoked, and each
session belongs to a consumed transfer of its own. -/
structure Safe (s : Access) : Prop where
  tokens : ∀ {i j a b}, s.transfers.find i = some a → s.transfers.find j = some b → a.tokenDigest = b.tokenDigest → i = j
  replaced : ∀ {i j a b}, s.transfers.find i = some a → s.transfers.find j = some b → i < j →
    a.installation = b.installation → a.recipient = b.recipient → a.revokedAt ≠ none
  opened : ∀ {i u}, s.sessions.find i = some u → ∃ row, s.transfers.find u.transfer = some row ∧ row.consumedAt ≠ none
  sole : ∀ {i j u v}, s.sessions.find i = some u → s.sessions.find j = some v → u.transfer = v.transfer → i = j

/-- A step that adds no rows. -/
theorem Safe.keep (h : s.Safe) (htransfers : Table.Evolve Transfer.Follows (fun _ => False) s.transfers t.transfers)
    (hsessions : Table.Evolve (PortalSession.Follows s.now) (fun _ => False) s.sessions t.sessions) : t.Safe := by
  have hold : ∀ {i b}, t.transfers.find i = some b → ∃ a, s.transfers.find i = some a ∧ a.Follows b := by
    intro i b hb
    exact (htransfers.old hb).resolve_left id
  have hsession : ∀ {i v}, t.sessions.find i = some v → ∃ u, s.sessions.find i = some u ∧ u.Follows s.now v := by
    intro i v hv
    exact (hsessions.old hv).resolve_left id
  constructor
  · intro i j a b ha hb htoken
    obtain ⟨a', ha', hfa⟩ := hold ha
    obtain ⟨b', hb', hfb⟩ := hold hb
    rw [hfa.tokenDigest, hfb.tokenDigest] at htoken
    exact h.tokens ha' hb' htoken
  · intro i j a b ha hb hlt hinstallation hrecipient
    obtain ⟨a', ha', hfa⟩ := hold ha
    obtain ⟨b', hb', hfb⟩ := hold hb
    rw [hfa.installation, hfb.installation] at hinstallation
    rw [hfa.recipient, hfb.recipient] at hrecipient
    have hrevoked := h.replaced ha' hb' hlt hinstallation hrecipient
    rw [hfa.revoked hrevoked]
    exact hrevoked
  · intro i v hv
    obtain ⟨u, hu, hfollows⟩ := hsession hv
    obtain ⟨row, hrow, hconsumed⟩ := h.opened hu
    obtain ⟨row', hrow', hf⟩ := htransfers.rows hrow
    refine ⟨row', by rw [hfollows.transfer]; exact hrow', ?_⟩
    rw [hf.consumed hconsumed]
    exact hconsumed
  · intro i j u v hu hv hsame
    obtain ⟨u', hu', hfu⟩ := hsession hu
    obtain ⟨v', hv', hfv⟩ := hsession hv
    rw [hfu.transfer, hfv.transfer] at hsame
    exact h.sole hu' hv' hsame

theorem revokePrevious_rows (s : Access) (installation : InstallationId) (recipient : Uuid) :
    Table.Evolve Transfer.Follows (fun _ => False) s.transfers (s.revokePrevious installation recipient) := by
  refine Table.Evolve.map fun a => ?_
  by_cases hactive : isActiveFor installation recipient a = true
  · rw [if_pos hactive]
    have hrevoked : a.revokedAt = none := by
      simp only [isActiveFor, decide_eq_true_eq] at hactive
      exact hactive.2.2
    exact Transfer.follows_revoke s.now hrevoked
  · rw [if_neg hactive]
    exact .refl a

/-- No transfer for the recipient is left unrevoked. -/
theorem revokePrevious_revoked {installation : InstallationId} {recipient : Uuid} {i : ℕ} {row : Transfer}
    (h : (s.revokePrevious installation recipient).find i = some row) (hinstallation : row.installation = installation)
    (hrecipient : row.recipient = recipient) : row.revokedAt ≠ none := by
  simp only [revokePrevious, Table.find_map, Option.map_eq_some_iff] at h
  obtain ⟨a, -, ha⟩ := h
  by_cases hactive : isActiveFor installation recipient a = true
  · rw [if_pos hactive] at ha
    subst ha
    exact Option.some_ne_none _
  · rw [if_neg hactive] at ha
    subst ha
    intro hnone
    exact hactive (by simp [isActiveFor, hinstallation, hrecipient, hnone])

@[simp] theorem nextId_revokePrevious (s : Access) (installation : InstallationId) (recipient : Uuid) :
    (s.revokePrevious installation recipient).nextId = s.transfers.nextId := by
  simp [revokePrevious, Table.nextId]

/-- The rows after a new transfer: itself, and the earlier ones. -/
theorem createTransfer_find {transfer row : Transfer} {i : ℕ}
    (h : (s.createTransfer transfer).transfers.find i = some row) :
    (i = s.transfers.nextId ∧ row = transfer) ∨ (i < s.transfers.nextId ∧
      (s.revokePrevious transfer.installation transfer.recipient).find i = some row) := by
  simp only [createTransfer, Table.find_insert, nextId_revokePrevious] at h
  split at h
  · rename_i hi
    exact .inl ⟨hi, (Option.some.inj h).symm⟩
  · have hlt := Table.lt_nextId_of_find h
    rw [nextId_revokePrevious] at hlt
    exact .inr ⟨hlt, h⟩

theorem Safe.create (h : s.Safe) {installation : InstallationId} {person : Uuid} {token : Text} {transfer : Transfer}
    (hadmitted : s.Admitted portal installation person token transfer) : (s.createTransfer transfer).Safe := by
  have hrows := s.revokePrevious_rows transfer.installation transfer.recipient
  have hsafe : Safe { s with transfers := s.revokePrevious transfer.installation transfer.recipient } :=
    h.keep hrows (.refl (.refl _))
  have hfresh : ∀ {i row}, (s.revokePrevious transfer.installation transfer.recipient).find i = some row →
      row.tokenDigest ≠ transfer.tokenDigest := by
    intro i row hrow
    obtain ⟨a, ha, hfollows⟩ := (hrows.old hrow).resolve_left id
    rw [hfollows.tokenDigest]
    exact hadmitted.fresh ha
  constructor
  · intro i j a b ha hb htoken
    rcases createTransfer_find ha with ⟨rfl, rfl⟩ | ⟨hi, ha⟩
    · rcases createTransfer_find hb with ⟨rfl, rfl⟩ | ⟨-, hb⟩
      · rfl
      · exact absurd htoken.symm (hfresh hb)
    · rcases createTransfer_find hb with ⟨rfl, rfl⟩ | ⟨-, hb⟩
      · exact absurd htoken (hfresh ha)
      · exact hsafe.tokens ha hb htoken
  · intro i j a b ha hb hlt hinstallation hrecipient
    rcases createTransfer_find ha with ⟨rfl, rfl⟩ | ⟨hi, ha⟩
    · rcases createTransfer_find hb with ⟨rfl, rfl⟩ | ⟨hj, -⟩ <;> omega
    · rcases createTransfer_find hb with ⟨rfl, rfl⟩ | ⟨-, hb⟩
      · exact revokePrevious_revoked ha hinstallation hrecipient
      · exact hsafe.replaced ha hb hlt hinstallation hrecipient
  · intro i u hu
    obtain ⟨row, hrow, hconsumed⟩ := hsafe.opened hu
    have hne := (Table.lt_nextId_of_find hrow).ne
    exact ⟨row, by simp only [createTransfer, Table.find_insert, if_neg hne]; exact hrow, hconsumed⟩
  · exact h.sole

theorem openSession_rows {id : ℕ} {row : Transfer} (sessionDigest : Text) (hrow : s.transfers.find id = some row)
    (hunused : row.consumedAt = none) :
    Table.Evolve Transfer.Follows (fun _ => False) s.transfers (s.openSession id sessionDigest).transfers := by
  refine Table.Evolve.modify .refl fun a ha => ?_
  rw [hrow] at ha
  cases ha
  exact Transfer.follows_consume s.now hunused

theorem Safe.open (h : s.Safe) {token : Text} {id : ℕ} (sessionDigest : Text) (hredeem : s.redeem portal token = .ok id) :
    (s.openSession id sessionDigest).Safe := by
  obtain ⟨row, htoken, hunused⟩ := redeem_ok hredeem
  have hrow := (tokenTransfer_ok htoken).1
  have hsafe : Safe { s with transfers := (s.openSession id sessionDigest).transfers } :=
    h.keep (openSession_rows sessionDigest hrow hunused) (.refl (.refl _))
  -- The transfer has no session before, for it is not consumed.
  have hnew : ∀ {i u}, s.sessions.find i = some u → u.transfer ≠ id := by
    rintro i u hu rfl
    obtain ⟨row', hrow', hconsumed⟩ := h.opened hu
    rw [hrow] at hrow'
    cases hrow'
    exact hconsumed hunused
  have hsession : ∀ {i u}, (s.openSession id sessionDigest).sessions.find i = some u →
      (i = s.sessions.nextId ∧ u.transfer = id) ∨ s.sessions.find i = some u := by
    intro i u hu
    simp only [openSession, Table.find_insert] at hu
    split at hu
    · rename_i hi
      cases hu
      exact .inl ⟨hi, rfl⟩
    · exact .inr hu
  constructor
  · exact hsafe.tokens
  · exact hsafe.replaced
  · intro i u hu
    rcases hsession hu with ⟨-, rfl⟩ | hu
    · refine ⟨{ row with consumedAt := some s.now }, ?_, Option.some_ne_none _⟩
      simp [openSession, setTransfer, hrow]
    · exact hsafe.opened hu
  · intro i j u v hu hv hsame
    rcases hsession hu with ⟨hi, hui⟩ | hold
    · rcases hsession hv with ⟨hj, -⟩ | hold
      · rw [hi, hj]
      · exact absurd (hsame.symm.trans hui) (hnew hold)
    · rcases hsession hv with ⟨-, hvi⟩ | hold'
      · exact absurd (hsame.trans hvi) (hnew hold)
      · exact h.sole hold hold' hsame

theorem revoke_rows {id : ℕ} {row : Transfer} (hrow : s.transfers.find id = some row) (hrevoked : row.revokedAt = none) :
    Table.Evolve Transfer.Follows (fun _ => False) s.transfers (s.revoke id).transfers := by
  refine Table.Evolve.modify .refl fun a ha => ?_
  rw [hrow] at ha
  cases ha
  exact Transfer.follows_revoke s.now hrevoked

theorem mail_rows (s : Access) (id : ℕ) (state : MailState) (code : String) :
    Table.Evolve Transfer.Follows (fun _ => False) s.transfers
      (s.setTransfer id fun t => { t with mailState := state, mailCode := code }).transfers :=
  .modify .refl fun _ _ => ⟨rfl, rfl, rfl, rfl, rfl, rfl, fun _ => rfl, fun _ => rfl⟩

theorem store_now_le {a : Action} {store store' : Store} (hs : store.step portal.settings a = some store') :
    store.now ≤ store'.now := by
  have htaken := Store.step_taken hs
  cases htaken with
  | tick elapsed => exact Nat.le_add_right _ _
  | reconcile => split_ifs <;> exact Nat.le_refl store.now
  | _ => exact Nat.le_refl store.now

theorem safe_step {a : AccessAction} (h : s.Safe) (hs : s.step portal a = some t) : t.Safe ∧ s.Advances t := by
  have hadvances : ∀ {transfers : Table Transfer} {sessions : Table PortalSession} (calls : Table Call),
      Table.Evolve Transfer.Follows (fun _ => False) s.transfers transfers →
      Table.Evolve (PortalSession.Follows s.now) (fun _ => False) s.sessions sessions →
      s.Advances { s with transfers := transfers, sessions := sessions, calls := calls } := by
    intro transfers sessions calls htransfers hsessions
    exact ⟨le_rfl, htransfers.mono fun _ => False.elim, hsessions.mono fun _ => False.elim⟩
  have htransfersRefl : Table.Evolve Transfer.Follows (fun _ => False) s.transfers s.transfers := .refl .refl
  have hsessionsRefl : Table.Evolve (PortalSession.Follows s.now) (fun _ => False) s.sessions s.sessions := .refl (.refl _)
  cases step_taken hs with
  | called a calls => exact ⟨h.keep htransfersRefl hsessionsRefl, hadvances calls htransfersRefl hsessionsRefl⟩
  | store hstep =>
    exact ⟨h.keep htransfersRefl hsessionsRefl, store_now_le hstep, .refl .refl, .refl (.refl _)⟩
  | @created installation requestId person token transfer hrequest =>
    have hadmitted := requestTransfer_ok hrequest
    refine ⟨h.create hadmitted, le_rfl, ?_, .refl (.refl _)⟩
    have hrows := (s.revokePrevious_rows transfer.installation transfer.recipient).mono (Q := fun _ => True) fun _ => False.elim
    exact hrows.trans Transfer.Follows.trans (fun _ _ => trivial) (.insert .refl trivial)
  | @mailed call id state code calls =>
    have hrows := mail_rows s id state code
    exact ⟨h.keep hrows hsessionsRefl, hadvances calls hrows hsessionsRefl⟩
  | @revoked a id row calls hrow hrevoked =>
    have hrows := revoke_rows hrow hrevoked
    exact ⟨h.keep hrows hsessionsRefl, hadvances calls hrows hsessionsRefl⟩
  | @redeemed call id token sessionKey sessionDigest calls hredeem =>
    have hsafe := h.open sessionDigest hredeem
    obtain ⟨row, htoken, hunused⟩ := redeem_ok hredeem
    have hrows := openSession_rows sessionDigest (tokenTransfer_ok htoken).1 hunused
    refine ⟨⟨hsafe.tokens, hsafe.replaced, hsafe.opened, hsafe.sole⟩, le_rfl, hrows.mono fun _ => False.elim, ?_⟩
    exact .insert (.refl _) trivial
  | @seen a web reportId sessionId id rows calls hcontext =>
    obtain ⟨-, session, -, hsession, hopen, -⟩ := portalContext_ok hcontext
    have hrows : Table.Evolve (PortalSession.Follows s.now) (fun _ => False) s.sessions (s.touch sessionId).sessions := by
      refine .modify (.refl _) fun u hu => ?_
      rw [hsession] at hu
      cases hu
      exact ⟨rfl, rfl, fun hout => hout, fun hidle => absurd hopen.seen (not_lt.mpr hidle)⟩
    exact ⟨h.keep htransfersRefl hrows, hadvances calls htransfersRefl hrows⟩
  | @loggedOut web id hportal =>
    have hrows : Table.Evolve (PortalSession.Follows s.now) (fun _ => False) s.sessions
        (s.sessions.modify id fun session => { session with loggedOutAt := some s.now }) :=
      .modify (.refl _) fun u _ => ⟨rfl, rfl, fun _ => Option.some_ne_none _, fun _ => rfl⟩
    exact ⟨h.keep htransfersRefl hrows, hadvances s.calls htransfersRefl hrows⟩

theorem safe_reachable (h : (accessSystem portal).Reachable s) : s.Safe := by
  refine h.invariant ?_ ?_
  · rintro s ⟨-, htransfers, hsessions, -⟩
    constructor <;> simp [htransfers, hsessions, Table.find]
  · intro s a t hI hs
    have hs : s.step portal a = some t := hs
    exact (safe_step hI hs).1

theorem advances_later (h : (accessSystem portal).Reachable s) (hst : (accessSystem portal).Later s t) :
    (accessSystem portal).Reachable t ∧ s.Advances t :=
  h.later Advances.refl Advances.trans (fun hreach hs => (safe_step (safe_reachable hreach) hs).2) hst

/-- A session that is open was open at every earlier moment. -/
theorem Advances.open_of (h : s.Advances t) (hsafe : s.Safe) {i : ℕ} {u v : PortalSession}
    (hu : s.sessions.find i = some u) (hv : t.sessions.find i = some v) (hopen : t.Open v) : s.Open u := by
  obtain ⟨v', hv', hfollows⟩ := h.sessions.rows hu
  rw [hv] at hv'
  cases hv'
  constructor
  · by_contra hout
    exact hfollows.logged_out hout hopen.logged_in
  · by_contra hidle
    have hidle : u.lastSeenAt + 30 * minute ≤ s.now := not_lt.mp hidle
    have hseen := hopen.seen
    rw [hfollows.idle hidle] at hseen
    exact absurd (hidle.trans h.now_le) (not_le.mpr hseen)
  · obtain ⟨a, ha, -⟩ := hsafe.opened hu
    obtain ⟨b, hb, hrow⟩ := h.transfers.rows ha
    obtain ⟨c, hc, hrevoked⟩ := hopen.granted
    rw [hfollows.transfer, hb] at hc
    cases hc
    refine ⟨a, ha, ?_⟩
    by_contra hne
    exact hne (by rw [← hrow.revoked hne]; exact hrevoked)

/-- A redeemed token belongs to a transfer that was unconsumed, unrevoked and unexpired at every
earlier moment. -/
theorem Advances.redeem_of (h : s.Advances t) (hsafe : t.Safe) {token : Text} {id i : ℕ} {a : Transfer}
    (ha : s.transfers.find i = some a) (htoken : a.tokenDigest = tokenDigest portal.settings token)
    (hredeem : t.redeem portal token = .ok id) :
    a.consumedAt = none ∧ a.revokedAt = none ∧ s.now < a.tokenExpiresAt := by
  obtain ⟨b, hrow, hunused⟩ := redeem_ok hredeem
  obtain ⟨hb, hdigest, hexpiry, hrevoked, -⟩ := tokenTransfer_ok hrow
  obtain ⟨b', hb', hfollows⟩ := h.transfers.rows ha
  have hsame : i = id := hsafe.tokens hb' hb (by rw [hfollows.tokenDigest, htoken, hdigest])
  subst hsame
  rw [hb] at hb'
  cases hb'
  refine ⟨?_, ?_, ?_⟩
  · by_contra hne
    exact hne (by rw [← hfollows.consumed hne]; exact hunused)
  · by_contra hne
    exact hne (by rw [← hfollows.revoked hne]; exact hrevoked)
  · rw [← hfollows.tokenExpiresAt]
    exact h.now_le.trans_lt hexpiry

/-- Access is bound to one generation of one recipient, in a state and in the states after it. -/
structure GenerationSafe (portal : PortalSettings) (s : Access) : Prop where
  single : ∀ {i j a b}, s.transfers.find i = some a → s.transfers.find j = some b → a.installation = b.installation →
    a.recipient = b.recipient → a.revokedAt = none → b.revokedAt = none → i = j
  replaced : ∀ {i j a b}, s.transfers.find i = some a → s.transfers.find j = some b → i < j →
    a.installation = b.installation → a.recipient = b.recipient → a.revokedAt ≠ none
  one_session : ∀ {i j u v a b}, s.sessions.find i = some u → s.sessions.find j = some v →
    s.transfers.find u.transfer = some a → s.transfers.find v.transfer = some b → a.tokenDigest = b.tokenDigest → i = j
  redeemed_once : ∀ {i u a token}, s.sessions.find i = some u → s.transfers.find u.transfer = some a →
    a.tokenDigest = tokenDigest portal.settings token →
    ∀ t, (accessSystem portal).Later s t → ∀ id, t.redeem portal token ≠ .ok id
  redeemed_in_time : ∀ {i a token}, s.transfers.find i = some a → a.tokenDigest = tokenDigest portal.settings token →
    a.tokenExpiresAt ≤ s.now ∨ a.revokedAt ≠ none →
    ∀ t, (accessSystem portal).Later s t → ∀ id, t.redeem portal token ≠ .ok id
  closed : ∀ {i u}, s.sessions.find i = some u →
    (u.loggedOutAt ≠ none ∨ u.lastSeenAt + 30 * minute ≤ s.now ∨
      ∃ a, s.transfers.find u.transfer = some a ∧ a.revokedAt ≠ none) →
    ∀ t, (accessSystem portal).Later s t → ∀ web reportId result, web.reportPortal = some i →
      t.portalContext portal web reportId ≠ .ok result
  within : ∀ {web reportId i id rows}, s.portalContext portal web reportId = .ok (i, id, rows) →
    web.reportPortal = some i ∧ ∃ u a, s.sessions.find i = some u ∧ u.transfer = id ∧ s.transfers.find id = some a ∧
      ∀ pk ∈ rows, pk ∈ a.submissions ∧
        ∃ row, s.store.rows.find pk = some row ∧ row.state = .ready ∧ s.now < s.store.expiry pk row
  loaded : ∀ {web reportId i pk document attachments},
    s.loadPortalSubmission portal web reportId = .ok (i, pk, document, attachments) →
    web.reportPortal = some i ∧ ∃ u a, s.sessions.find i = some u ∧ s.transfers.find u.transfer = some a ∧
      pk ∈ a.submissions
  snapshot : ∀ {id a}, s.transfers.find id = some a → ∀ t, (accessSystem portal).Later s t →
    ∃ b, t.transfers.find id = some b ∧ b.submissions = a.submissions

end Access

/-- Over any order of requests there is one unrevoked transfer for a recipient, a token opens one
session, a closed session stays closed, and a session reads from the snapshot of its transfer. -/
theorem access_generationSafe {portal : PortalSettings} {s : Access} (h : (accessSystem portal).Reachable s) :
    s.GenerationSafe portal where
  single {i j a b} ha hb hinstallation hrecipient hnone hnone' := by
    have hsafe := Access.safe_reachable h
    rcases Nat.lt_trichotomy i j with hlt | heq | hlt
    · exact absurd hnone (hsafe.replaced ha hb hlt hinstallation hrecipient)
    · exact heq
    · exact absurd hnone' (hsafe.replaced hb ha hlt hinstallation.symm hrecipient.symm)
  replaced := (Access.safe_reachable h).replaced
  one_session hu hv ha hb htoken := by
    have hsafe := Access.safe_reachable h
    exact hsafe.sole hu hv (hsafe.tokens ha hb htoken)
  redeemed_once {i u a token} hu ha htoken t hst id hredeem := by
    obtain ⟨hreach, hadvances⟩ := Access.advances_later h hst
    obtain ⟨row, hrow, hconsumed⟩ := (Access.safe_reachable h).opened hu
    rw [ha] at hrow
    cases hrow
    exact hconsumed (hadvances.redeem_of (Access.safe_reachable hreach) ha htoken hredeem).1
  redeemed_in_time {i a token} ha htoken hended t hst id hredeem := by
    obtain ⟨hreach, hadvances⟩ := Access.advances_later h hst
    obtain ⟨-, hrevoked, hexpiry⟩ := hadvances.redeem_of (Access.safe_reachable hreach) ha htoken hredeem
    rcases hended with hexpired | hne
    · exact absurd hexpiry (not_lt.mpr hexpired)
    · exact hne hrevoked
  closed {i u} hu hclosed t hst web reportId result hweb hcontext := by
    obtain ⟨hreach, hadvances⟩ := Access.advances_later h hst
    obtain ⟨sessionId, id, rows⟩ := result
    obtain ⟨hportal, v, transfer, hv, hopen, -⟩ := Access.portalContext_ok hcontext
    rw [hweb] at hportal
    cases hportal
    have hbefore := hadvances.open_of (Access.safe_reachable h) hu hv hopen
    rcases hclosed with hout | hidle | ⟨a, ha, hrevoked⟩
    · exact hout hbefore.logged_in
    · exact absurd hbefore.seen (not_lt.mpr hidle)
    · obtain ⟨b, hb, hnone⟩ := hbefore.granted
      rw [ha] at hb
      cases hb
      exact hrevoked hnone
  within hcontext := by
    obtain ⟨hportal, u, a, hu, -, hid, ha, hrows⟩ := Access.portalContext_ok hcontext
    exact ⟨hportal, u, a, hu, hid, ha, hrows⟩
  loaded hload := by
    obtain ⟨id, rows, hcontext, hpk⟩ := Access.loadPortalSubmission_ok hload
    obtain ⟨hportal, u, a, hu, -, rfl, ha, hrows⟩ := Access.portalContext_ok hcontext
    exact ⟨hportal, u, a, hu, ha, (hrows _ hpk).1⟩
  snapshot ha t hst := by
    obtain ⟨-, hadvances⟩ := Access.advances_later h hst
    obtain ⟨b, hb, hfollows⟩ := hadvances.transfers.rows ha
    exact ⟨b, hb, hfollows.submissions⟩

/-! ### A portal session that outlives its token -/

def samplePortal : PortalSettings where
  settings := sampleSettings
  emailDigest := id
  publicOriginValid := true

def sampleToken : Text := List.replicate 43 97

def sampleWeb : WebSession := ⟨some [107], some 0⟩

def sampleAccess : Access := { store := sampleStore }

theorem reachable_sampleAccess : (accessSystem samplePortal).Reachable sampleAccess :=
  .init ⟨⟨rfl, rfl, rfl, rfl⟩, rfl, rfl, rfl⟩

/-- A report is submitted, its link sent and redeemed at once. -/
def sampleRedemption : List AccessAction :=
  (accepts 0 sampleSubmission).map .store ++
    [.requestTransfer 0 (uuidText 7) (uuidText 9) sampleToken, .sendLink 0 .delivered, .recordMail 0,
      .beginRedeem sampleToken, .finishRedeem 1 [107]]

/-- The recipient returns every half hour but a minute. -/
def sampleVisits : List AccessAction :=
  [.store (.tick (29 * minute)), .openPortal sampleWeb none, .store (.tick (29 * minute)), .openPortal sampleWeb none,
    .store (.tick (2 * minute))]

theorem sampleRedemption_generationSafe : ∃ s, Machine.follow (Access.step samplePortal) sampleAccess sampleRedemption = some s ∧
    s.sessions.nextId = 1 ∧ s.GenerationSafe samplePortal := by
  have hfollow : (Machine.follow (Access.step samplePortal) sampleAccess sampleRedemption).map
      (fun s => s.sessions.nextId) = some 1 := by decide +kernel
  obtain ⟨s, hs, hsessions⟩ := Option.map_eq_some_iff.mp hfollow
  have hreach := reachable_sampleAccess.follow (M := accessSystem samplePortal) (fun h => h) hs
  exact ⟨s, hs, hsessions, access_generationSafe hreach⟩

set_option synthInstance.maxSize 1000 in
/-- After an hour the link is no longer valid, and the session it opened still is. -/
theorem session_outlives_token : ¬∀ s, (accessSystem samplePortal).Reachable s → ∀ web reportId i id rows transfer,
    s.portalContext samplePortal web reportId = .ok (i, id, rows) → s.transfers.find id = some transfer →
      s.now < transfer.tokenExpiresAt := by
  intro hall
  have hfollow : (Machine.follow (Access.step samplePortal) sampleAccess (sampleRedemption ++ sampleVisits)).map
      (fun s => (s.now, (s.transfers.find 0).map Transfer.tokenExpiresAt,
        (s.portalContext samplePortal sampleWeb none).toOption)) =
      some (60 * minute, some (60 * minute), some (0, 0, [0])) := by decide +kernel
  obtain ⟨s, hs, hfacts⟩ := Option.map_eq_some_iff.mp hfollow
  simp only [Prod.mk.injEq, Option.map_eq_some_iff] at hfacts
  obtain ⟨hnow, ⟨transfer, htransfer, hexpiry⟩, hcontext⟩ := hfacts
  have hreach := reachable_sampleAccess.follow (M := accessSystem samplePortal) (fun h => h) hs
  have hok : s.portalContext samplePortal sampleWeb none = .ok (0, 0, [0]) := by
    cases hresult : s.portalContext samplePortal sampleWeb none with
    | error e => simp [hresult, Except.toOption] at hcontext
    | ok result =>
      rw [hresult] at hcontext
      exact congrArg Except.ok (Option.some.inj hcontext)
  have hlt := hall s hreach _ _ _ _ _ transfer hok htransfer
  rw [hnow, hexpiry] at hlt
  exact lt_irrefl _ hlt

end FireDash.ReportTransfer
