import FireDash.Tablets.Installations

/-! Adoptions over every run: an invitation brings one installation, a closed one none, and a
replay only a new credential. -/
namespace FireDash.Tablets

open Json (Text)
open Publications (Bytes Time)
open Delivery (Tablet TabletId AppInstallation InstallationId InstallationStatus)

variable {settings : Settings} {s t : Registry} {action : Action}

/-! ### The invariant -/

/-- A completed request, with the moment of its completion and the installation it brought. -/
structure CompletedBy (s : Registry) (r : AdoptionRequest) (completedAt : Time) (v : AdoptionInvitation)
    (id : InstallationId) (installation : AppInstallation) : Prop where
  completed : r.completedAt = some completedAt
  window : r.completionReplayValidUntil = some (completedAt + completionReplayDuration)
  unexpired : completedAt < r.expiresAt
  attempts : r.failedAttemptCount < maxFailedAttempts
  invitation : s.invitations.find r.invitation = some v
  used : v.usedAt ≠ none
  identified : ∃ identity, s.identities.find id = some identity ∧ identity.installationUuid = r.installationUuid
  installed : s.fleet.installations.find id = some installation
  tablet : installation.tablet = v.tablet

/-- What holds of adoptions in every run. -/
structure Adopting (s : Registry) : Prop where
  aligned : s.identities.nextId = s.fleet.installations.nextId
  distinct : ∀ {i j a b}, s.identities.find i = some a → s.identities.find j = some b →
    a.installationUuid = b.installationUuid → i = j
  completed : ∀ {i r}, s.requests.find i = some r → r.completedAt ≠ none →
    ∃ completedAt v id installation, CompletedBy s r completedAt v id installation
  once : ∀ {i j r q}, s.requests.find i = some r → s.requests.find j = some q → r.completedAt ≠ none →
    q.completedAt ≠ none → r.invitation = q.invitation → i = j
  origin : ∀ {i identity}, s.identities.find i = some identity →
    ∃ j r, s.requests.find j = some r ∧ r.completedAt ≠ none ∧ r.installationUuid = identity.installationUuid
  limit : ∀ {i v}, s.invitations.find i = some v → maxFailedAttempts ≤ v.failedAttemptCount → v.revokedAt ≠ none

theorem CompletedBy.step (h : Taken settings s action t) {r q : AdoptionRequest} {completedAt : Time}
    {v : AdoptionInvitation} {id : InstallationId} {installation : AppInstallation}
    (hr : CompletedBy s r completedAt v id installation) (hq : RequestKept r q) :
    ∃ w installation', CompletedBy t q completedAt w id installation' ∧ w.tablet = v.tablet ∧ w.expiresAt = v.expiresAt := by
  obtain ⟨w, hw, hkept⟩ := h.invitations.rows hr.invitation
  obtain ⟨identity, hidentity, huuid⟩ := hr.identified
  obtain ⟨identity', hidentity', hsame⟩ := h.identities.rows hidentity
  obtain ⟨installation', hinstallation', hinstalled⟩ := h.installations.rows hr.installed
  obtain ⟨hcompleted, hwindow, hcount⟩ := hq.completed (by rw [hr.completed]; simp)
  refine ⟨w, installation', ?_, hkept.tablet, hkept.expiresAt⟩
  constructor
  · rw [hcompleted, hr.completed]
  · rw [hwindow, hr.window]
  · rw [hq.expiresAt]
    exact hr.unexpired
  · rw [hcount]
    exact hr.attempts
  · rw [hq.invitation]
    exact hw
  · rw [hkept.used hr.used]
    exact hr.used
  · exact ⟨identity', hidentity', by rw [hsame, huuid, hq.installationUuid]⟩
  · exact hinstallation'
  · rw [hinstalled.1, hr.tablet, hkept.tablet]

/-- A request is completed after a step because it was, under its own names, or by the adoption. -/
theorem Taken.completed_cases (h : Taken settings s action t) {i : ℕ} {r : AdoptionRequest}
    (hr : t.requests.find i = some r) (hcompleted : r.completedAt ≠ none) :
    (∃ r₀, s.requests.find i = some r₀ ∧ r₀.completedAt ≠ none ∧ RequestKept r₀ r) ∨
      ∃ request invitation installation identity, Adopts s action t i request invitation installation identity ∧
        r = { request with
          completedAt := some s.now, completionReplayValidUntil := some (s.now + completionReplayDuration) } := by
  have hold : (∃ r₀, s.requests.find i = some r₀ ∧ r₀.completedAt ≠ none) →
      ∃ r₀, s.requests.find i = some r₀ ∧ r₀.completedAt ≠ none ∧ RequestKept r₀ r := by
    rintro ⟨r₀, hr₀, hcompleted₀⟩
    obtain ⟨r', hr', hkept⟩ := h.requests.rows hr₀
    rw [hr] at hr'
    cases hr'
    exact ⟨r₀, hr₀, hcompleted₀, hkept⟩
  rcases h.adoption with hkept | ⟨id, request, invitation, installation, identity, hadopts⟩
  · exact .inl (hold (hkept.completions i r hr hcompleted))
  · rcases hadopts.request_cases hr with ⟨-, hr₀⟩ | ⟨rfl, rfl⟩
    · exact .inl (hold ⟨r, hr₀, hcompleted⟩)
    · exact .inr ⟨request, invitation, installation, identity, hadopts, rfl⟩

/-- An adoption completes its request with the installation it adds. -/
theorem Adopts.completedBy {id : ℕ} {request : AdoptionRequest} {invitation : AdoptionInvitation}
    {installation : AppInstallation} {identity : Identity} (hs : Adopting s)
    (h : Adopts s action t id request invitation installation identity) :
    CompletedBy t { request with
        completedAt := some s.now, completionReplayValidUntil := some (s.now + completionReplayDuration) } s.now
      { invitation with usedAt := some s.now } s.identities.nextId installation where
  completed := rfl
  window := rfl
  unexpired := h.completes.unexpired
  attempts := h.completes.attempts
  invitation := by
    obtain ⟨calls, rfl⟩ := h.state
    simp [Registry.adopted, h.completes.invitationRow]
  used := by simp
  identified := ⟨identity, by rw [h.identities]; simp, h.uuid⟩
  installed := by
    rw [h.installations, Delivery.Fleet.adopted, Table.find_insert, Delivery.nextId_endInstallations, hs.aligned, if_pos rfl]
  tablet := h.tablet

theorem Adopting.step (h : Taken settings s action t) (hs : Adopting s) : Adopting t where
  aligned := by
    rcases h.adoption with hkept | ⟨id, request, invitation, installation, identity, hadopts⟩
    · rw [hkept.identities.nextId, hkept.installations.nextId, hs.aligned]
    · rw [hadopts.identities, hadopts.installations, Delivery.Fleet.adopted, Table.nextId_insert, Table.nextId_insert,
        Delivery.nextId_endInstallations, hs.aligned]
  distinct {i j a b} ha hb hab := by
    rcases h.adoption with hkept | ⟨id, request, invitation, installation, identity, hadopts⟩
    · rcases hkept.identities.old ha with hf | ⟨a₀, ha₀, haa⟩
      · exact hf.elim
      rcases hkept.identities.old hb with hf | ⟨b₀, hb₀, hbb⟩
      · exact hf.elim
      exact hs.distinct ha₀ hb₀ (by rw [← haa, ← hbb, hab])
    · rw [hadopts.identities, Table.find_insert] at ha hb
      split at ha <;> split at hb
      · omega
      · cases ha
        exact absurd (hab.symm.trans hadopts.uuid) (hadopts.completes.fresh j b hb)
      · cases hb
        exact absurd (hab.trans hadopts.uuid) (hadopts.completes.fresh i a ha)
      · exact hs.distinct ha hb hab
  completed {i r} hr hcompleted := by
    rcases h.completed_cases hr hcompleted with ⟨r₀, hr₀, hcompleted₀, hkept⟩ | hadopted
    · obtain ⟨completedAt, v, id, installation, hc⟩ := hs.completed hr₀ hcompleted₀
      obtain ⟨w, installation', hc', -, -⟩ := hc.step h hkept
      exact ⟨completedAt, w, id, installation', hc'⟩
    · obtain ⟨request, invitation, installation, identity, hadopts, rfl⟩ := hadopted
      exact ⟨_, _, _, _, hadopts.completedBy hs⟩
  once {i j r q} hr hq hcr hcq hinvitation := by
    -- A used invitation completes no other request.
    have hnew : ∀ {i j : ℕ} {request q₀ : AdoptionRequest} {invitation : AdoptionInvitation}
        {installation : AppInstallation} {identity : Identity}, Adopts s action t i request invitation installation identity →
        s.requests.find j = some q₀ → q₀.completedAt ≠ none → q₀.invitation ≠ request.invitation := by
      intro i j request q₀ invitation installation identity hadopts hq₀ hcompleted hsame
      obtain ⟨completedAt, v, id, installation', hc⟩ := hs.completed hq₀ hcompleted
      have hv := hc.invitation
      rw [hsame, hadopts.completes.invitationRow] at hv
      cases hv
      exact hc.used hadopts.completes.unused
    rcases h.completed_cases hr hcr with ⟨r₀, hr₀, hcr₀, hrkept⟩ | ⟨request, invitation, installation, identity, hadopts, rfl⟩
    · rcases h.completed_cases hq hcq with ⟨q₀, hq₀, hcq₀, hqkept⟩ | ⟨request, invitation, installation, identity, hadopts, rfl⟩
      · exact hs.once hr₀ hq₀ hcr₀ hcq₀ (by rw [← hrkept.invitation, ← hqkept.invitation, hinvitation])
      · exact (hnew hadopts hr₀ hcr₀ (hrkept.invitation.symm.trans hinvitation)).elim
    · rcases h.completed_cases hq hcq with ⟨q₀, hq₀, hcq₀, hqkept⟩ | ⟨request', invitation', installation', identity', hadopts', rfl⟩
      · exact (hnew hadopts hq₀ hcq₀ (hqkept.invitation.symm.trans hinvitation.symm)).elim
      · rcases hadopts.request_cases hq with ⟨-, hq₀⟩ | ⟨hji, -⟩
        · rw [hadopts'.completes.requestRow] at hq₀
          rw [← Option.some.inj hq₀] at hcq
          exact absurd hadopts'.completes.incomplete hcq
        · exact hji.symm
  origin {i identity} hi := by
    have hold : (∃ a, s.identities.find i = some a ∧ identity.installationUuid = a.installationUuid) →
        ∃ j r, t.requests.find j = some r ∧ r.completedAt ≠ none ∧ r.installationUuid = identity.installationUuid := by
      rintro ⟨a, ha, hsame⟩
      obtain ⟨j, r, hr, hcompleted, huuid⟩ := hs.origin ha
      obtain ⟨q, hq, hkept⟩ := h.requests.rows hr
      exact ⟨j, q, hq, by rw [(hkept.completed hcompleted).1]; exact hcompleted, by rw [hkept.installationUuid, huuid, hsame]⟩
    rcases h.adoption with hkept | ⟨id, request, invitation, installation, identity', hadopts⟩
    · rcases hkept.identities.old hi with hf | ⟨a, ha, hsame⟩
      · exact hf.elim
      · exact hold ⟨a, ha, hsame⟩
    · rw [hadopts.identities, Table.find_insert] at hi
      split at hi
      · cases hi
        obtain ⟨q, hq, hkept⟩ := h.requests.rows hadopts.completes.requestRow
        rcases hadopts.request_cases hq with ⟨hne, -⟩ | ⟨-, rfl⟩
        · exact absurd rfl hne
        · exact ⟨id, _, hq, by simp, hadopts.uuid.symm⟩
      · exact hold ⟨identity, hi, rfl⟩
  limit {i v} hv hlimit := by
    rcases h.invitations.old hv with ⟨-, -, hzero, -⟩ | ⟨v₀, hv₀, hkept⟩
    · rw [hzero] at hlimit
      cases hlimit
    · rcases hkept.limit with hsame | hrevoked
      · exact hkept.revoked (hs.limit hv₀ (hsame ▸ hlimit))
      · exact hrevoked hlimit

theorem adopting_of_reachable (h : (tabletSystem settings).Reachable s) :
    Publications.Inv s.delivery.db.core ∧ Adopting s := by
  refine tabletSystem_invariant (fun s hs => ?_) (fun s action t hI ht => hI.step ht) h
  obtain ⟨-, -, -, -, hinstallations, -, -, hidentities, hinvitations, hrequests, -⟩ := hs
  constructor
  · rw [hidentities, hinstallations]
    rfl
  · intro i j a b ha
    rw [hidentities] at ha
    cases ha
  · intro i r hr
    rw [hrequests] at hr
    cases hr
  · intro i j r q hr
    rw [hrequests] at hr
    cases hr
  · intro i identity hi
    rw [hidentities] at hi
    cases hi
  · intro i v hv
    rw [hinvitations] at hv
    cases hv

/-! ### What an invitation brings -/

/-- A completed request for the invitation brought the installation. -/
def Yields (s : Registry) (invitation : ℕ) (installation : InstallationId) : Prop :=
  ∃ i r identity, s.requests.find i = some r ∧ r.invitation = invitation ∧ r.completedAt ≠ none ∧
    s.identities.find installation = some identity ∧ identity.installationUuid = r.installationUuid

theorem Yields.unique (hs : Adopting s) {invitation : ℕ} {i j : InstallationId} (hi : Yields s invitation i)
    (hj : Yields s invitation j) : i = j := by
  obtain ⟨k, r, a, hr, hinvitation, hcompleted, ha, huuid⟩ := hi
  obtain ⟨l, q, b, hq, hinvitation', hcompleted', hb, huuid'⟩ := hj
  obtain rfl := hs.once hr hq hcompleted hcompleted' (hinvitation.trans hinvitation'.symm)
  rw [hr] at hq
  cases hq
  exact hs.distinct ha hb (huuid.trans huuid'.symm)

theorem Yields.step (h : Taken settings s action t) {invitation : ℕ} {i : InstallationId} (hi : Yields s invitation i) :
    Yields t invitation i := by
  obtain ⟨k, r, a, hr, hinvitation, hcompleted, ha, huuid⟩ := hi
  obtain ⟨q, hq, hkept⟩ := h.requests.rows hr
  obtain ⟨b, hb, hsame⟩ := h.identities.rows ha
  exact ⟨k, q, b, hq, hkept.invitation.trans hinvitation, by rw [(hkept.completed hcompleted).1]; exact hcompleted, hb,
    by rw [hsame, huuid, hkept.installationUuid]⟩

/-- Too many failures, a revocation or an expiry end what the request may bring. -/
def Closed (s : Registry) (id : ℕ) : Prop :=
  ∃ r v, s.requests.find id = some r ∧ s.invitations.find r.invitation = some v ∧
    (maxFailedAttempts ≤ r.failedAttemptCount ∨ maxFailedAttempts ≤ v.failedAttemptCount ∨ v.revokedAt ≠ none ∨
      r.expiresAt ≤ s.now ∨ v.expiresAt ≤ s.now)

theorem Closed.step (h : Taken settings s action t) {id : ℕ} (hc : Closed s id) : Closed t id := by
  obtain ⟨r, v, hr, hv, hclosed⟩ := hc
  obtain ⟨q, hq, hrkept⟩ := h.requests.rows hr
  obtain ⟨w, hw, hvkept⟩ := h.invitations.rows hv
  refine ⟨q, w, hq, by rw [hrkept.invitation]; exact hw, ?_⟩
  rcases hclosed with hcount | hcount | hrevoked | hexpired | hexpired
  · exact .inl (hcount.trans hrkept.failures)
  · exact .inr (.inl (hcount.trans hvkept.failures))
  · exact .inr (.inr (.inl (hvkept.revoked hrevoked)))
  · exact .inr (.inr (.inr (.inl (by rw [hrkept.expiresAt]; exact hexpired.trans h.now_le))))
  · exact .inr (.inr (.inr (.inr (by rw [hvkept.expiresAt]; exact hexpired.trans h.now_le))))

/-- What later states keep of invitations, installations and closed requests. -/
def AdoptionsStay (s t : Registry) : Prop :=
  (∀ invitation i, Yields s invitation i → Yields t invitation i) ∧ ∀ id, Closed s id → Closed t id

theorem adoptionsStay_later (h : (tabletSystem settings).Reachable s) (hst : (tabletSystem settings).Later s t) :
    AdoptionsStay s t := by
  refine (h.later (R := AdoptionsStay) ?_ ?_ ?_ hst).2
  · exact fun s => ⟨fun _ _ hy => hy, fun _ hc => hc⟩
  · exact fun hst htu => ⟨fun v i hy => htu.1 v i (hst.1 v i hy), fun id hc => htu.2 id (hst.2 id hc)⟩
  · rintro s action t hreach rfl
    have htaken : Taken settings s action (s.step settings action) := step_taken (adopting_of_reachable hreach).1 action
    exact ⟨fun _ _ hy => hy.step htaken, fun _ hc => hc.step htaken⟩

/-! ### Completions in time -/

/-- The transaction of a completion does not run between the end of its invitation and the end of
its challenge. -/
def InTime (s : Registry) (action : Action) : Prop :=
  ∀ id r v, CompletesBy s action id → s.requests.find id = some r → s.invitations.find r.invitation = some v →
    v.expiresAt ≤ s.now → r.expiresAt ≤ s.now

/-- Every request was completed before its invitation ended. -/
def Timely (s : Registry) : Prop :=
  ∀ i r completedAt v, s.requests.find i = some r → r.completedAt = some completedAt →
    s.invitations.find r.invitation = some v → completedAt < v.expiresAt

theorem Completes.not_closed {id : ℕ} {r : AdoptionRequest} {v : AdoptionInvitation} (hs : Adopting s)
    (hc : Completes s id r v) (hunexpired : s.now < v.expiresAt) : ¬Closed s id := by
  rintro ⟨q, w, hq, hw, hclosed⟩
  rw [hc.requestRow] at hq
  cases hq
  rw [hc.invitationRow] at hw
  cases hw
  rcases hclosed with hcount | hcount | hrevoked | hexpired | hexpired
  · exact absurd hc.attempts (Nat.not_lt.mpr hcount)
  · exact hs.limit hc.invitationRow hcount hc.unrevoked
  · exact hrevoked hc.unrevoked
  · exact absurd hc.unexpired (Nat.not_lt.mpr hexpired)
  · exact absurd hunexpired (Nat.not_lt.mpr hexpired)

/-- A completion in time finds its invitation unexpired. -/
theorem Completes.inTime {id : ℕ} {r : AdoptionRequest} {v : AdoptionInvitation} (hc : Completes s id r v)
    (hcall : CompletesBy s action id) (htime : InTime s action) : s.now < v.expiresAt := by
  by_contra hexpired
  have hlate := htime id r v hcall hc.requestRow hc.invitationRow (Nat.not_lt.mp hexpired)
  exact absurd hc.unexpired (Nat.not_lt.mpr hlate)

theorem Timely.step (h : Taken settings s action t) (hs : Adopting s) (htimely : Timely s) (htime : InTime s action) :
    Timely t := by
  intro i r completedAt v hr hcompleted hv
  rcases h.completed_cases hr (by rw [hcompleted]; simp) with ⟨r₀, hr₀, hcompleted₀, hkept⟩ | hadopted
  · obtain ⟨c, v₀, id, installation, hc⟩ := hs.completed hr₀ hcompleted₀
    obtain ⟨w, hw, hvkept⟩ := h.invitations.rows hc.invitation
    rw [← hkept.invitation, hv] at hw
    cases hw
    rw [hvkept.expiresAt]
    refine htimely i r₀ completedAt v₀ hr₀ ?_ hc.invitation
    rw [← (hkept.completed hcompleted₀).1, hcompleted]
  · obtain ⟨request, invitation, installation, identity, hadopts, rfl⟩ := hadopted
    cases hcompleted
    rcases hadopts.invitation_cases hv with ⟨hne, -⟩ | ⟨-, rfl⟩
    · exact absurd rfl hne
    · exact hadopts.completes.inTime hadopts.call htime

theorem timely_of_reachableBy (h : (tabletSystem settings).ReachableBy InTime s) : Adopting s ∧ Timely s := by
  refine ⟨(adopting_of_reachable h.reachable).2, (tabletSystem_invariantBy (I := Timely) (fun s hs => ?_) ?_ h).2⟩
  · intro i r completedAt v hr
    rw [hs.2.2.2.2.2.2.2.2.2.1] at hr
    cases hr
  · exact fun s action t hreach htimely htime ht => htimely.step ht (adopting_of_reachable hreach).2 htime

/-- In runs that complete no adoption between the end of its invitation and that of its challenge:
an invitation brings at most one installation, and every installation comes from one; each request
was completed before it and its invitation ended; a completion succeeds only for a request that is
not closed, with the first installation of its invitation, and what is closed stays closed; failed
proofs count for their request and their invitation; and a replay succeeds only in its window, for
the installation its completion brought, still in use, and changes its credential alone. -/
theorem adoption_once (h : (tabletSystem settings).ReachableBy InTime s) :
    (∀ v i j, Yields s v i → Yields s v j → i = j) ∧
    (∀ i a, s.fleet.installations.find i = some a → ∃ v, Yields s v i) ∧
    (∀ i r, s.requests.find i = some r → r.completedAt ≠ none → ∃ completedAt v id installation,
      CompletedBy s r completedAt v id installation ∧ completedAt < r.expiresAt ∧ completedAt < v.expiresAt) ∧
    (∀ call credential id installation t, s.calls.find call = some (.complete id) →
      InTime s (.finishCompletion call credential) →
      s.completeSuccessfulAdoption settings id credential = .ok (installation, t) →
      ¬Closed s id ∧ installation = s.fleet.installations.nextId ∧
        ∃ r, s.requests.find id = some r ∧ (∀ j, ¬Yields s r.invitation j) ∧ Yields t r.invitation installation) ∧
    (∀ t, (tabletSystem settings).Later s t → AdoptionsStay s t) ∧
    (∀ id r, s.requests.find id = some r → r.completedAt = none → s.now < r.expiresAt →
      ∃ q v w, (s.recordFailedAttempt id).requests.find id = some q ∧ q.failedAttemptCount = r.failedAttemptCount + 1 ∧
        s.invitations.find r.invitation = some v ∧ (s.recordFailedAttempt id).invitations.find r.invitation = some w ∧
        w.failedAttemptCount = v.failedAttemptCount + 1) ∧
    ∀ id response credential installationId t,
      s.replaySuccessfulCompletion settings id response credential = .ok (installationId, t) →
      ∃ r completedAt v installation, s.requests.find id = some r ∧
        CompletedBy s r completedAt v installationId installation ∧ Yields s r.invitation installationId ∧
        s.now < completedAt + completionReplayDuration ∧ v.revokedAt = none ∧
        r.completionReplayInvalidatedAt = none ∧ installation.status ≠ .revoked ∧ installation.status ≠ .replaced ∧
        t = { s with identities := s.identities.modify installationId fun i =>
          { i with credentialHash := settings.secretDigest credential } } := by
  obtain ⟨hs, htimely⟩ := timely_of_reachableBy h
  refine ⟨fun v i j hi hj => hi.unique hs hj, fun i a ha => ?_, fun i r hr hcompleted => ?_, ?_,
    fun t hst => adoptionsStay_later h.reachable hst, fun id r hr hopen hunexpired => ?_, ?_⟩
  · have hlt : i < s.identities.nextId := by
      rw [hs.aligned]
      exact Table.lt_nextId_of_find ha
    have hidentity : s.identities.find i = some _ := List.getElem?_eq_getElem hlt
    obtain ⟨j, r, hr, hcompleted, huuid⟩ := hs.origin hidentity
    exact ⟨r.invitation, j, r, _, hr, rfl, hcompleted, hidentity, huuid.symm⟩
  · obtain ⟨completedAt, v, id, installation, hc⟩ := hs.completed hr hcompleted
    exact ⟨completedAt, v, id, installation, hc, hc.unexpired, htimely i r completedAt v hr hc.completed hc.invitation⟩
  · intro call credential id installationId t hcall htime hok
    obtain ⟨r, v, installation, identity, hc, rfl, htablet, hstatus, huuid, rfl⟩ := completeSuccessfulAdoption_eq_ok hok
    have hby : CompletesBy s (.finishCompletion call credential) id := ⟨call, credential, rfl, hcall⟩
    have hadopts : Adopts s (.finishCompletion call credential) (s.adopted id r installation identity) id r v installation
        identity := ⟨hby, hc, htablet, hstatus, huuid, _, rfl⟩
    refine ⟨hc.not_closed hs (hc.inTime hby htime), hs.aligned, r, hc.requestRow, fun j hy => ?_, ?_⟩
    · obtain ⟨k, q, a, hq, hinvitation, hcompleted, -, -⟩ := hy
      obtain ⟨c, w, i, installation', hby'⟩ := hs.completed hq hcompleted
      have hw := hby'.invitation
      rw [hinvitation, hc.invitationRow] at hw
      cases hw
      exact hby'.used hc.unused
    · obtain ⟨identity', hidentity', huuid'⟩ := (hadopts.completedBy hs).identified
      have hrow : (s.adopted id r installation identity).requests.find id = some { r with
          completedAt := some s.now, completionReplayValidUntil := some (s.now + completionReplayDuration) } := by
        simp only [Registry.adopted, Table.find_modify, if_true, hc.requestRow, Option.map_some]
      exact ⟨id, _, identity', hrow, rfl, by simp, hidentity', huuid'⟩
  · obtain ⟨v, hv⟩ := Option.isSome_iff_exists.mp ((sound_of_reachable h.reachable).2.linked hr)
    have hrecorded : s.recordFailedAttempt id = { s with
        requests := s.requests.modify id fun r => { r with failedAttemptCount := r.failedAttemptCount + 1 }
        invitations := s.invitations.modify r.invitation (Registry.AdoptionInvitation.failed s.now) } := by
      have hopen' : ¬(r.completedAt ≠ none ∨ r.expiresAt ≤ s.now) := by
        rw [not_or, not_not, not_le]
        exact ⟨hopen, hunexpired⟩
      unfold Registry.recordFailedAttempt
      rw [hr]
      exact if_neg hopen'
    rw [hrecorded]
    exact ⟨_, v, _, by simp [hr]; rfl, rfl, hv, by simp [hv]; rfl, rfl⟩
  · intro id response credential installationId t hok
    obtain ⟨r, v, installation, hr, rfl⟩ := replaySuccessfulCompletion_eq_ok hok
    obtain ⟨c, w, i, installed, hc⟩ := hs.completed hr.requestRow hr.completed
    obtain ⟨identity, hidentity, huuid⟩ := hr.identified
    obtain ⟨identity', hidentity', huuid'⟩ := hc.identified
    obtain rfl : i = installationId := hs.distinct hidentity' hidentity (huuid'.trans huuid.symm)
    obtain rfl : installed = installation := Option.some.inj (hc.installed.symm.trans hr.installationRow)
    obtain rfl : w = v := Option.some.inj (hc.invitation.symm.trans hr.invitationRow)
    obtain ⟨validUntil, hwindow, hlt⟩ := hr.window
    rw [hc.window] at hwindow
    cases hwindow
    refine ⟨r, c, w, installed, hr.requestRow, hc,
      ⟨id, r, identity, hr.requestRow, rfl, hr.completed, hidentity, huuid⟩, hlt, hr.unrevoked, hr.valid, ?_, ?_, rfl⟩
    · intro hrevoked
      have hcurrent := hr.current
      rw [hrevoked] at hcurrent
      cases hcurrent
    · intro hreplaced
      have hcurrent := hr.current
      rw [hreplaced] at hcurrent
      cases hcurrent

theorem inTime_of_unexpired (h : (s.invitations.rows.all fun v => s.now < v.expiresAt) = true) : InTime s action := by
  intro id r v _ _ hv hexpired
  have hrow := List.all_eq_true.mp h v (List.mem_of_getElem? hv)
  exact absurd (of_decide_eq_true hrow) (Nat.not_lt.mpr hexpired)

/-- The sample tablet is about to be adopted. -/
def provenAdoption : List Action := assignedTablet ++
  [.createAdoptionInvitation (fun _ => true) 0 none [65],
    .createAdoptionRequest [65] 7 "1.0.0" (4 :: List.replicate 64 0) Delivery.hpkeCiphersuite [1],
    .beginCompletion 0 [1] true]

theorem provenAdoption_once :
    (((sampleRun provenAdoption).step sampleSettings (.finishCompletion 0 [66])).fleet.installations.rows.map
        (·.status) = [.active]) ∧
      ∀ v i j, Yields ((sampleRun provenAdoption).step sampleSettings (.finishCompletion 0 [66])) v i →
        Yields ((sampleRun provenAdoption).step sampleSettings (.finishCompletion 0 [66])) v j → i = j := by
  have hstart : (tabletSystem sampleSettings).ReachableBy InTime (sampleRun provenAdoption) := by
    refine reachableBy_foldl provenAdoption (.init init_sampleRegistry) fun a ha s id r v hcall => ?_
    obtain ⟨call, credential, rfl, -⟩ := hcall
    simp [provenAdoption, assignedTablet] at ha
  have hunexpired : ((sampleRun provenAdoption).invitations.rows.all fun v =>
      (sampleRun provenAdoption).now < v.expiresAt) = true := by decide +kernel
  exact ⟨by decide +kernel, (adoption_once (hstart.next (inTime_of_unexpired hunexpired) rfl)).1⟩

/-- The adoption is requested one minute before the invitation ends, and proven one minute after. -/
def lateAdoption : List Action := assignedTablet ++
  [.createAdoptionInvitation (fun _ => true) 0 none [65], .tick (14 * Publications.minute),
    .createAdoptionRequest [65] 7 "1.0.0" (4 :: List.replicate 64 0) Delivery.hpkeCiphersuite [1],
    .tick (2 * Publications.minute), .beginCompletion 0 [1] true]

/-- The invitation is over and still brings an installation. -/
theorem lateAdoption_succeeds : ∃ s r v credential installation t, (tabletSystem sampleSettings).Reachable s ∧
    s.calls.find 0 = some (.complete 0) ∧ s.requests.find 0 = some r ∧ s.invitations.find r.invitation = some v ∧
    v.expiresAt ≤ s.now ∧ s.completeSuccessfulAdoption sampleSettings 0 credential = .ok (installation, t) := by
  have hcall : (sampleRun lateAdoption).calls.find 0 = some (.complete 0) := by decide +kernel
  have hrow : ((sampleRun lateAdoption).requests.find 0).map (·.invitation) = some 0 := by decide +kernel
  have hexpired : ((sampleRun lateAdoption).invitations.find 0).map
      (fun v => decide (v.expiresAt ≤ (sampleRun lateAdoption).now)) = some true := by decide +kernel
  have hadopted : ((sampleRun lateAdoption).completeSuccessfulAdoption sampleSettings 0 [66]).map Prod.fst = .ok 0 := by
    decide +kernel
  have hreach : (tabletSystem sampleSettings).Reachable (sampleRun lateAdoption) := reachable_sampleRun lateAdoption
  generalize sampleRun lateAdoption = s at hcall hrow hexpired hadopted hreach
  obtain ⟨r, hr, hinvitation⟩ := Option.map_eq_some_iff.mp hrow
  obtain ⟨v, hv, hlate⟩ := Option.map_eq_some_iff.mp hexpired
  cases hok : s.completeSuccessfulAdoption sampleSettings 0 [66] with
  | error e =>
    rw [hok] at hadopted
    cases hadopted
  | ok result =>
    obtain ⟨installation, t⟩ := result
    exact ⟨s, r, v, [66], installation, t, hreach, hcall, hr, hinvitation ▸ hv, of_decide_eq_true hlate, hok⟩

end FireDash.Tablets
