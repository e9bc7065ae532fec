import FireDash.ReportTransfer.Grants

/-! The rates at which transfers are created, over every window of time. -/
namespace FireDash.ReportTransfer

open Json (Text)
open Publications (Time minute)
open Delivery (InstallationId)

namespace Access

variable {portal : PortalSettings} {s t : Access}

/-- Each transfer as its installation, its recipient and the moment of its creation. -/
def log (s : Access) : List (InstallationId × Uuid × Time) :=
  s.transfers.rows.map fun t => (t.installation, t.recipient, t.issuedAt)

/-- When the transfers of an installation were created. -/
def created (s : Access) (installation : InstallationId) : List Time :=
  (s.log.filter fun e => e.1 = installation).map fun e => e.2.2

/-- When its transfers for one recipient were created. -/
def createdFor (s : Access) (installation : InstallationId) (recipient : Uuid) : List Time :=
  (s.log.filter fun e => e.1 = installation ∧ e.2.1 = recipient).map fun e => e.2.2

theorem log_of_rows (h : Table.Evolve Transfer.Follows (fun _ => False) s.transfers t.transfers) : t.log = s.log :=
  h.map_rows fun {a b} hab => by rw [hab.installation, hab.recipient, hab.issuedAt]

theorem log_createTransfer (s : Access) (transfer : Transfer) :
    (s.createTransfer transfer).log = s.log ++ [(transfer.installation, transfer.recipient, transfer.issuedAt)] := by
  have hprevious := log_of_rows (t := { s with transfers := s.revokePrevious transfer.installation transfer.recipient })
    (s.revokePrevious_rows transfer.installation transfer.recipient)
  rw [← hprevious]
  simp [log, createTransfer, Table.insert]

theorem countP_created (s : Access) (installation : InstallationId) (now window : ℕ) :
    (s.transfers.rows.countP fun t => t.installation = installation ∧ now < t.issuedAt + window) =
      (s.created installation).countP fun t => now < t + window := by
  simp only [created, log, List.countP_map, List.countP_filter]
  refine List.countP_congr fun t _ => ?_
  simp [and_comm]

theorem countP_createdFor (s : Access) (installation : InstallationId) (recipient : Uuid) (now window : ℕ) :
    (s.transfers.rows.countP fun t => t.installation = installation ∧ t.recipient = recipient ∧ now < t.issuedAt + window) =
      (s.createdFor installation recipient).countP fun t => now < t + window := by
  simp only [createdFor, log, List.countP_map, List.countP_filter]
  refine List.countP_congr fun t _ => ?_
  simp [and_comm, and_assoc]

/-- A step adds nothing to the log, or the one transfer of a request within both rates. -/
theorem log_step {a : AccessAction} (hs : s.step portal a = some t) :
    t.log = s.log ∨ ∃ installation requestId person token transfer,
      a = .requestTransfer installation requestId person token ∧
      s.requestTransfer portal installation requestId person token = .ok (.inr transfer) ∧
      t.log = s.log ++ [(installation, person, s.now)] := by
  cases step_taken hs with
  | @created installation requestId person token transfer hrequest =>
    have hadmitted := requestTransfer_ok hrequest
    refine .inr ⟨installation, requestId, person, token, transfer, rfl, hrequest, ?_⟩
    rw [log_createTransfer, hadmitted.installation, hadmitted.recipient, hadmitted.issuedAt]
  | @redeemed call id token sessionKey sessionDigest calls hredeem =>
    obtain ⟨row, htoken, hunused⟩ := redeem_ok hredeem
    exact .inl (log_of_rows (openSession_rows sessionDigest (tokenTransfer_ok htoken).1 hunused))
  | @revoked a id row calls hrow hrevoked => exact .inl (log_of_rows (revoke_rows hrow hrevoked))
  | @mailed call id state code calls => exact .inl (log_of_rows (mail_rows s id state code))
  | _ => exact .inl rfl

/-- Within both rates, whoever the transfers are for. -/
structure Limited (portal : PortalSettings) (s : Access) : Prop where
  hourly : ∀ installation, Paced hour portal.settings.mailsPerHour (s.created installation)
  minutely : ∀ installation recipient, Paced minute portal.settings.mailsPerMinute (s.createdFor installation recipient)

theorem limited_step {a : AccessAction} (h : s.Limited portal) (hs : s.step portal a = some t) : t.Limited portal := by
  rcases log_step hs with hlog | ⟨installation, requestId, person, token, transfer, -, hrequest, hlog⟩
  · constructor
    · intro installation
      unfold created
      rw [hlog]
      exact h.hourly installation
    · intro installation recipient
      unfold createdFor
      rw [hlog]
      exact h.minutely installation recipient
  · have hadmitted := requestTransfer_ok hrequest
    have hhourly := hadmitted.hourly
    have hminutely := hadmitted.minutely
    rw [hadmitted.installation, Access.hourly, countP_created] at hhourly
    rw [hadmitted.installation, hadmitted.recipient, Access.minutely, countP_createdFor] at hminutely
    constructor
    · intro other
      by_cases hother : installation = other
      · subst hother
        have hcreated : t.created installation = s.created installation ++ [s.now] := by
          simp [created, hlog]
        rw [hcreated]
        exact (h.hourly installation).admitted hhourly
      · have hcreated : t.created other = s.created other := by
          simp [created, hlog, hother]
        rw [hcreated]
        exact h.hourly other
    · intro other recipient
      by_cases hother : installation = other ∧ person = recipient
      · obtain ⟨rfl, rfl⟩ := hother
        have hcreated : t.createdFor installation person = s.createdFor installation person ++ [s.now] := by
          simp [createdFor, hlog]
        rw [hcreated]
        exact (h.minutely installation person).admitted hminutely
      · have hcreated : t.createdFor other recipient = s.createdFor other recipient := by
          simp [createdFor, hlog, hother]
        rw [hcreated]
        exact h.minutely other recipient

theorem limited_reachable (h : (accessSystem portal).Reachable s) : s.Limited portal := by
  refine h.invariant ?_ ?_
  · rintro s ⟨-, htransfers, -, -⟩
    have hlog : s.log = [] := by simp [log, htransfers]
    constructor
    · intro installation
      simp only [created, hlog]
      exact .nil
    · intro installation recipient
      simp only [createdFor, hlog]
      exact .nil
  · intro s a t hI hs
    have hs : s.step portal a = some t := hs
    exact limited_step hI hs

end Access

/-- Whatever was requested, no window of an hour holds more new transfers of an installation than
the hourly rate, and no window of a minute more for one of its recipients than the rate by minute;
a request that is refused or replayed changes nothing, and any other creates one transfer. -/
theorem transfers_within_rates {portal : PortalSettings} {s : Access} (h : (accessSystem portal).Reachable s) :
    (∀ installation start,
      (s.created installation).countP (fun t => start ≤ t ∧ t < start + hour) ≤ portal.settings.mailsPerHour ∧
      (s.created installation).countP (fun t => start < t ∧ t ≤ start + hour) ≤ portal.settings.mailsPerHour) ∧
    (∀ installation recipient start,
      (s.createdFor installation recipient).countP (fun t => start ≤ t ∧ t < start + minute) ≤
        portal.settings.mailsPerMinute ∧
      (s.createdFor installation recipient).countP (fun t => start < t ∧ t ≤ start + minute) ≤
        portal.settings.mailsPerMinute) ∧
    (∀ installation requestId person token t,
      s.step portal (.requestTransfer installation requestId person token) = some t →
      (∀ transfer, s.requestTransfer portal installation requestId person token ≠ .ok (.inr transfer)) ∧ t = s ∨
      (∃ transfer, s.requestTransfer portal installation requestId person token = .ok (.inr transfer)) ∧
        t.log = s.log ++ [(installation, person, s.now)]) ∧
    ∀ a t, s.step portal a = some t →
      (∀ installation requestId person token, a ≠ .requestTransfer installation requestId person token) → t.log = s.log := by
  have hlimited := Access.limited_reachable h
  refine ⟨?_, ?_, ?_, ?_⟩
  · intro installation start
    exact ⟨(hlimited.hourly installation).countP_from start, (hlimited.hourly installation).countP_after start⟩
  · intro installation recipient start
    have hpaced := hlimited.minutely installation recipient
    exact ⟨hpaced.countP_from start, hpaced.countP_after start⟩
  · intro installation requestId person token t hs
    rcases Access.log_step hs with hlog | ⟨_, _, _, _, transfer, heq, hrequest, hlog⟩
    · left
      simp only [Access.step] at hs
      split at hs
      · split at hs
        · rename_i transfer hrequest
          cases hs
          rw [Access.log_createTransfer] at hlog
          exact absurd (congrArg List.length hlog) (by simp)
        · rename_i hrefused
          cases hs
          exact ⟨hrefused, rfl⟩
      · cases hs
    · cases heq
      exact .inr ⟨⟨transfer, hrequest⟩, hlog⟩
  · intro a t hs hother
    rcases Access.log_step hs with hlog | ⟨_, _, _, _, _, heq, -, -⟩
    · exact hlog
    · exact absurd heq (hother _ _ _ _)

/-- Three links for one recipient are sent within a minute. -/
def sampleRequests : List AccessAction :=
  (accepts 0 sampleSubmission).map .store ++
    [.requestTransfer 0 (uuidText 7) (uuidText 9) sampleToken, .sendLink 0 .delivered, .recordMail 0, .store (.tick (minute / 3)),
      .requestTransfer 0 (uuidText 8) (uuidText 9) (List.replicate 43 98), .sendLink 1 .delivered, .recordMail 1,
      .store (.tick (minute / 3)), .requestTransfer 0 (uuidText 10) (uuidText 9) (List.replicate 43 99), .sendLink 2 .delivered,
      .recordMail 2]

/-- Another link, and the first one again. -/
def furtherRequests : List (Uuid × Text) := [(uuidText 11, List.replicate 43 100), (uuidText 7, List.replicate 43 101)]

/-- The rate is reached: a request more is refused, and a repeated one is answered with its link; neither creates any. -/
theorem sampleRequests_within_rates : ∃ s, Machine.follow (Access.step samplePortal) sampleAccess sampleRequests = some s ∧
    s.createdFor 0 (uuidText 9) = [0, minute / 3, 2 * (minute / 3)] ∧
    (∀ start, (s.created 0).countP (fun t => start ≤ t ∧ t < start + hour) ≤ samplePortal.settings.mailsPerHour) ∧
    (∀ start, (s.createdFor 0 (uuidText 9)).countP (fun t => start ≤ t ∧ t < start + minute) ≤ samplePortal.settings.mailsPerMinute) ∧
    (furtherRequests.map fun request => s.requestTransfer samplePortal 0 request.1 (uuidText 9) request.2) =
      [.error (.transfer "transfer_rate_limited" 429), .ok (.inl 0)] ∧
    ∀ request ∈ furtherRequests, ∀ t, s.step samplePortal (.requestTransfer 0 request.1 (uuidText 9) request.2) = some t → t = s := by
  have hfollow : (Machine.follow (Access.step samplePortal) sampleAccess sampleRequests).map
      (fun s => (s.createdFor 0 (uuidText 9), furtherRequests.map fun request =>
        s.requestTransfer samplePortal 0 request.1 (uuidText 9) request.2)) =
      some ([0, minute / 3, 2 * (minute / 3)], [.error (.transfer "transfer_rate_limited" 429), .ok (.inl 0)]) := by decide +kernel
  obtain ⟨s, hs, hfacts⟩ := Option.map_eq_some_iff.mp hfollow
  obtain ⟨hcreated, hanswers⟩ := Prod.mk.inj hfacts
  have hreach := reachable_sampleAccess.follow (M := accessSystem samplePortal) (fun h => h) hs
  obtain ⟨hhourly, hminutely, hrequests, -⟩ := transfers_within_rates hreach
  refine ⟨s, hs, hcreated, fun start => (hhourly 0 start).1, fun start => (hminutely 0 (uuidText 9) start).1, hanswers, ?_⟩
  intro request hrequest t hstep
  rcases hrequests _ _ _ _ t hstep with ⟨-, hsame⟩ | ⟨⟨transfer, hnew⟩, -⟩
  · exact hsame
  · have hanswer : s.requestTransfer samplePortal 0 request.1 (uuidText 9) request.2 ∈
        [.error (.transfer "transfer_rate_limited" 429), .ok (.inl 0)] := by
      rw [← hanswers]
      exact List.mem_map_of_mem hrequest
    rw [hnew] at hanswer
    simp at hanswer

end FireDash.ReportTransfer
