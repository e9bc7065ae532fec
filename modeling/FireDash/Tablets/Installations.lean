import FireDash.Tablets.Lifecycle

/-! The lifecycle of installations over every run: one current installation a tablet, ended ones
for ever, and nothing left in use of a tablet that is lost or retired. -/
namespace FireDash.Tablets

open Json (Text)
open Publications (Bytes Time DepartmentId)
open Delivery (Tablet TabletId TabletStatus AppInstallation InstallationId InstallationStatus assetTransition)

variable {settings : Settings} {s t : Registry} {action : Action}

/-- No installation of the tablet is current, no invitation to it unused, no completion replayable. -/
structure Withdrawn (s : Registry) (id : TabletId) : Prop where
  installations : ∀ i a, s.fleet.installations.find i = some a → a.tablet = id → a.status.isCurrent = false
  invitations : ∀ i v, s.invitations.find i = some v → v.tablet = id → v.usedAt ≠ none ∨ v.revokedAt ≠ none
  requests : ∀ i r, s.requests.find i = some r → s.replayable id r = false

/-- What holds of the tables in every run. -/
structure Sound (s : Registry) : Prop where
  single : ∀ {i j a b}, s.fleet.installations.find i = some a → s.fleet.installations.find j = some b →
    a.tablet = b.tablet → a.status.isCurrent = true → b.status.isCurrent = true → i = j
  flag : ∀ {id tablet}, s.fleet.tablets.find id = some tablet →
    (tablet.active = true ↔ tablet.status = .inactive ∨ tablet.status = .active)
  grants : ∀ {id}, s.delivery.HasGrant id → ∃ a, s.fleet.installations.find id = some a ∧ a.status.isCurrent = true
  linked : ∀ {i r}, s.requests.find i = some r → (s.invitations.find r.invitation).isSome = true
  withdrawn : ∀ {id tablet}, s.fleet.tablets.find id = some tablet → tablet.active = false → Withdrawn s id

theorem replayable_eq_true {id : TabletId} {r : AdoptionRequest} : s.replayable id r = true ↔
    (∃ v, s.invitations.find r.invitation = some v ∧ v.tablet = id) ∧ r.completedAt ≠ none ∧
      (∃ validUntil, r.completionReplayValidUntil = some validUntil ∧ s.now < validUntil) ∧
      r.completionReplayInvalidatedAt = none := by
  simp [Registry.replayable, Option.mem_def]

/-! ### Current installations -/

/-- An installation is current after a step because it was, or as the only one of its tablet. -/
theorem Taken.current (h : Taken settings s action t) {i : InstallationId} {b : AppInstallation}
    (hb : t.fleet.installations.find i = some b) (hcurrent : b.status.isCurrent = true) :
    (∃ a, s.fleet.installations.find i = some a ∧ a.tablet = b.tablet ∧ a.status.isCurrent = true) ∨
      ∀ j c, t.fleet.installations.find j = some c → c.tablet = b.tablet → c.status.isCurrent = true → j = i := by
  have hold : Table.Evolve InstallationKept (fun _ => False) s.fleet.installations t.fleet.installations →
      ∃ a, s.fleet.installations.find i = some a ∧ a.tablet = b.tablet ∧ a.status.isCurrent = true := by
    intro hkept
    rcases hkept.old hb with hfalse | ⟨a, ha, hab⟩
    · exact hfalse.elim
    · refine ⟨a, ha, hab.1.symm, ?_⟩
      by_contra hended
      rw [Bool.not_eq_true] at hended
      rw [hab.2 hended, hended] at hcurrent
      cases hcurrent
  rcases h.adoption with hkept | ⟨id, request, invitation, installation, identity, hadopts⟩
  · exact .inl (hold hkept.installations)
  · -- The old rows of the tablet that was adopted are not current any more.
    have hrow : ∀ j c, t.fleet.installations.find j = some c → c.status.isCurrent = true →
        j = s.fleet.installations.nextId ∧ c = installation ∨
          s.fleet.installations.find j = some c ∧ c.tablet ≠ installation.tablet := by
      intro j c hc hcur
      rw [hadopts.installations, Delivery.Fleet.adopted, Table.find_insert] at hc
      rw [Delivery.nextId_endInstallations] at hc
      split at hc
      · cases hc
        exact .inl ⟨‹_›, rfl⟩
      · rw [Delivery.find_endInstallations] at hc
        obtain ⟨a, ha, rfl⟩ := Option.map_eq_some_iff.mp hc
        split at hcur
        · cases hcur
        · rename_i hother
          rw [if_neg hother]
          exact .inr ⟨ha, fun heq => hother ⟨heq, hcur⟩⟩
    rcases hrow i b hb hcurrent with ⟨rfl, rfl⟩ | ⟨ha, -⟩
    · refine .inr fun j c hc htablet hcur => ?_
      rcases hrow j c hc hcur with ⟨rfl, -⟩ | ⟨-, hne⟩
      · rfl
      · exact absurd htablet hne
    · exact .inl ⟨b, ha, rfl, hcurrent⟩

theorem single_step (h : Taken settings s action t) (hs : Sound s) {i j : InstallationId} {a b : AppInstallation}
    (ha : t.fleet.installations.find i = some a) (hb : t.fleet.installations.find j = some b)
    (htablet : a.tablet = b.tablet) (hcurrent : a.status.isCurrent = true) (hcurrent' : b.status.isCurrent = true) :
    i = j := by
  rcases h.current ha hcurrent with ⟨a₀, ha₀, htablet₀, hcur₀⟩ | honly
  · rcases h.current hb hcurrent' with ⟨b₀, hb₀, htablet₁, hcur₁⟩ | honly
    · exact hs.single ha₀ hb₀ (htablet₀.trans (htablet.trans htablet₁.symm)) hcur₀ hcur₁
    · exact honly i a ha htablet hcurrent
  · exact (honly j b hb htablet.symm hcurrent').symm

/-! ### Grants -/

/-- A current installation that is not among the ended ones of the tablet stays as it is. -/
theorem find_of_not_ended {fleet fleet' : Delivery.Fleet} {tablet : TabletId} {status : InstallationStatus}
    {id : InstallationId} {a : AppInstallation} (ha : fleet.installations.find id = some a)
    (hfind : fleet'.installations.find id = (fleet.endInstallations tablet status).installations.find id)
    (hnot : id ∉ fleet'.installationsOf tablet (· = status)) : fleet'.installations.find id = some a := by
  rw [Delivery.find_endInstallations, ha, Option.map_some] at hfind
  split at hfind
  · rename_i hended
    exact absurd (Delivery.mem_installationsOf.mpr ⟨_, hfind, hended.1, by simp⟩) hnot
  · exact hfind

/-- A grant is in use after a step because it was, or because its installation is operational;
either way its installation stays current. -/
theorem grants_step (h : Taken settings s action t) (hs : Sound s) {id : InstallationId} (hg : t.delivery.HasGrant id) :
    ∃ a, t.fleet.installations.find id = some a ∧ a.status.isCurrent = true := by
  have hsame : t.fleet.installations = s.fleet.installations → s.delivery.HasGrant id →
      ∃ a, t.fleet.installations.find id = some a ∧ a.status.isCurrent = true := by
    intro he hold
    rw [he]
    exact hs.grants hold
  cases h with
  | kept h =>
    rcases h.grants id hg with hold | ⟨installation, tablet, hfind, hactive, -, -⟩
    · exact hsame h.installations hold
    · rw [h.installations]
      exact ⟨installation, hfind, by rw [hactive]; rfl⟩
  | @failed id calls =>
    rcases recordFailedAttempt_cases s id with he | ⟨request, -, -, -, he⟩
    · rw [he] at hg
      exact hsame (by rw [he]; rfl) hg
    · rw [he] at hg
      exact hsame (by rw [he]; rfl) hg
  | @adopted request₀ request invitation installation identity calls hcall h htablet hstatus hidentity =>
    obtain ⟨hold, hnot⟩ := Delivery.hasGrant_revokeInstallations hg
    obtain ⟨a, ha, hcurrent⟩ := hs.grants hold
    refine ⟨a, ?_, hcurrent⟩
    change (Delivery.State.revokeInstallations _ s.now _).fleet.installations.find id = some a
    rw [Delivery.fleet_revokeInstallations]
    refine find_of_not_ended ha ?_ hnot
    change ((s.fleet.endInstallations installation.tablet .replaced).installations.insert installation).find id = _
    rw [Table.find_insert, Delivery.nextId_endInstallations, if_neg (Table.lt_nextId_of_find ha).ne]
  | contacted h =>
    obtain ⟨a, ha, hcurrent⟩ := hs.grants hg
    obtain ⟨b, hb, hab⟩ := h.rows ha
    rcases hab with rfl | ⟨-, -, hcurrent'⟩
    · exact ⟨b, hb, hcurrent⟩
    · exact ⟨b, hb, hcurrent'⟩
  | @deactivated id tablet reason htablet htransition =>
    exact hsame (by simp [Registry.fleet, Delivery.Fleet.modifyTablet]) (Delivery.hasGrant_revokeInstallations hg).1
  | @withdrawn tabletId tablet status htablet htransition hstatus =>
    obtain ⟨hold, hnot⟩ := Delivery.hasGrant_revokeInstallations hg
    obtain ⟨a, ha, hcurrent⟩ := hs.grants hold
    refine ⟨a, ?_, hcurrent⟩
    change ((s.delivery.revokeTabletInstallations tabletId s.now).withStatus tabletId status false).fleet.installations.find
      id = some a
    rw [Delivery.fleet_withStatus, Delivery.fleet_revokeTabletInstallations]
    exact find_of_not_ended ha rfl hnot
  | @revoked installationId installation hinstallation hended =>
    obtain ⟨hold, hne⟩ := Delivery.hasGrant_revokeDatasetKeyGrants hg
    obtain ⟨a, ha, hcurrent⟩ := hs.grants hold
    refine ⟨a, ?_, hcurrent⟩
    change (s.fleet.installations.modify installationId _).find id = some a
    rw [Table.find_modify, if_neg hne.symm]
    exact ha
  | _ => exact hsame rfl hg

/-! ### Withdrawn tablets -/

/-- A withdrawal leaves nothing of its tablet in use. -/
theorem withdrawn_revokeAdoptions {id : TabletId} {status : TabletStatus} {active : Bool} :
    Withdrawn (Registry.revokeAdoptions
      { s with delivery := (s.delivery.revokeTabletInstallations id s.now).withStatus id status active } id) id where
  installations i a ha htablet := by
    change ((s.delivery.revokeTabletInstallations id s.now).withStatus id status active).fleet.installations.find i =
      some a at ha
    rw [Delivery.fleet_withStatus, Delivery.fleet_revokeTabletInstallations] at ha
    change (s.delivery.fleet.endInstallations id .revoked).installations.find i = some a at ha
    rw [Delivery.find_endInstallations] at ha
    obtain ⟨b, hb, rfl⟩ := Option.map_eq_some_iff.mp ha
    split
    · rfl
    · rename_i hended
      rw [if_neg hended] at htablet
      rw [← Bool.not_eq_true]
      exact fun hcurrent => hended ⟨htablet, hcurrent⟩
  invitations i v hv htablet := by
    simp only [Registry.revokeAdoptions, Table.find_map] at hv
    obtain ⟨w, hw, rfl⟩ := Option.map_eq_some_iff.mp hv
    split
    · exact .inr (by simp)
    · rename_i hopen
      rw [if_neg hopen] at htablet
      by_contra hno
      rw [not_or, not_not, not_not] at hno
      exact hopen ⟨htablet, hno⟩
  requests i r hr := by
    simp only [Registry.revokeAdoptions, Table.find_map] at hr
    obtain ⟨r₀, hr₀, rfl⟩ := Option.map_eq_some_iff.mp hr
    rw [← Bool.not_eq_true]
    intro hreplay
    obtain ⟨⟨v, hv, htablet⟩, hcompleted, hwindow, hvalid⟩ := replayable_eq_true.mp hreplay
    split at hvalid
    · cases hvalid
    · rename_i hclosed
      rw [if_neg hclosed] at hv hcompleted hwindow
      simp only [Registry.revokeAdoptions, Table.find_map] at hv
      obtain ⟨w, hw, rfl⟩ := Option.map_eq_some_iff.mp hv
      refine hclosed (replayable_eq_true.mpr ⟨⟨w, hw, ?_⟩, hcompleted, hwindow, hvalid⟩)
      split at htablet <;> exact htablet

/-- A tablet after a step is as before, in service, or just withdrawn. -/
theorem Taken.tablet_cases (h : Taken settings s action t) {id : TabletId} {tablet : Tablet}
    (ht : t.fleet.tablets.find id = some tablet) : s.fleet.tablets.find id = some tablet ∨
      tablet.active = true ∧ (tablet.status = .inactive ∨ tablet.status = .active) ∨
      tablet.active = false ∧ (tablet.status = .lost ∨ tablet.status = .retired) ∧ Withdrawn t id := by
  have hsame : t.fleet.tablets = s.fleet.tablets → s.fleet.tablets.find id = some tablet := fun he => he ▸ ht
  have hmoved : ∀ {moved : TabletId} {status : TabletStatus} {active : Bool},
      (s.fleet.tablets.modify moved fun row => { row with status := status, active := active }).find id = some tablet →
      s.fleet.tablets.find id = some tablet ∨ moved = id ∧ tablet.status = status ∧ tablet.active = active := by
    intro moved status active hfind
    rw [Table.find_modify] at hfind
    split at hfind
    · obtain ⟨row, -, rfl⟩ := Option.map_eq_some_iff.mp hfind
      exact .inr ⟨‹_›, rfl, rfl⟩
    · exact .inl hfind
  cases h with
  | kept h => exact .inl (hsame h.tablets)
  | tabletCreated =>
    simp only [Registry.insertTablet, Registry.setFleet, Registry.fleet, Delivery.State.modifyFleet, Table.find_insert] at ht
    split at ht
    · cases ht
      exact .inr (.inl ⟨rfl, .inl rfl⟩)
    · exact .inl ht
  | @failed request calls =>
    rcases recordFailedAttempt_cases s request with he | ⟨request, -, -, -, he⟩ <;> exact .inl (hsame (by rw [he]; rfl))
  | adopted =>
    refine .inl (hsame ?_)
    change (Delivery.State.revokeInstallations _ s.now _).fleet.tablets = _
    rw [Delivery.fleet_revokeInstallations]
    rfl
  | transitioned htablet htransition hstatus haction =>
    rcases hmoved ht with hold | ⟨-, hst, hactive⟩
    · exact .inl hold
    · rw [hst]
      exact .inr (.inl ⟨hactive, hstatus.symm⟩)
  | @deactivated moved row reason htablet htransition =>
    change (Delivery.State.withStatus _ moved .inactive true).fleet.tablets.find id = some tablet at ht
    rw [Delivery.fleet_withStatus, Delivery.fleet_obsoleteManifests, Delivery.fleet_revokeInstallations] at ht
    rcases hmoved ht with hold | ⟨-, hst, hactive⟩
    · exact .inl hold
    · exact .inr (.inl ⟨hactive, .inl hst⟩)
  | @withdrawn moved row status htablet htransition hstatus =>
    have hfind := ht
    change ((s.delivery.revokeTabletInstallations moved s.now).withStatus moved status false).fleet.tablets.find id =
      some tablet at hfind
    rw [Delivery.fleet_withStatus, Delivery.fleet_revokeTabletInstallations] at hfind
    rcases hmoved hfind with hold | ⟨rfl, hst, hactive⟩
    · exact .inl hold
    · rw [hst]
      exact .inr (.inr ⟨hactive, hstatus, withdrawn_revokeAdoptions⟩)
  | _ => exact .inl (hsame rfl)

/-- What a tablet out of service has lost does not come back while it stays so. -/
theorem Withdrawn.step (h : Taken settings s action t) (hs : Sound s) {id : TabletId} {tablet : Tablet}
    (htablet : s.fleet.tablets.find id = some tablet) (hactive : tablet.active = false) (hw : Withdrawn s id) :
    Withdrawn t id := by
  have hout : ∀ row, s.fleet.tablets.find id = some row → row.active ≠ true := by
    intro row hrow
    rw [htablet] at hrow
    cases hrow
    rw [hactive]
    decide
  constructor
  · intro i b hb hid
    rcases h.installations.old hb with ⟨row, hrow, hrowactive⟩ | ⟨a, ha, hkept⟩
    · exact absurd hrowactive (hout row (hid ▸ hrow))
    · have hended : a.status.isCurrent = false := hw.installations i a ha (hkept.1 ▸ hid)
      rw [hkept.2 hended]
      exact hended
  · intro i v hv hid
    rcases h.invitations.old hv with ⟨-, -, -, row, hrow, hrowactive⟩ | ⟨v₀, hv₀, hkept⟩
    · exact absurd hrowactive (hout row (hid ▸ hrow))
    · rcases hw.invitations i v₀ hv₀ (hkept.tablet ▸ hid) with hused | hrevoked
      · exact .inl (by rw [hkept.used hused]; exact hused)
      · exact .inr (hkept.revoked hrevoked)
  · intro i r hr
    rw [← Bool.not_eq_true]
    intro hreplay
    obtain ⟨⟨v, hv, hid⟩, hcompleted, ⟨validUntil, hwindow, hlt⟩, hvalid⟩ := replayable_eq_true.mp hreplay
    have hold : (∃ r₀, s.requests.find i = some r₀ ∧ r₀.completedAt ≠ none) → False := by
      rintro ⟨r₀, hr₀, hcompleted₀⟩
      obtain ⟨r', hr', hkept⟩ := h.requests.rows hr₀
      rw [hr] at hr'
      cases hr'
      obtain ⟨v₀, hv₀⟩ := Option.isSome_iff_exists.mp (hs.linked hr₀)
      obtain ⟨v', hv', hvkept⟩ := h.invitations.rows hv₀
      rw [← hkept.invitation, hv] at hv'
      cases hv'
      have hreplay₀ : s.replayable id r₀ = true := by
        refine replayable_eq_true.mpr ⟨⟨v₀, hv₀, hvkept.tablet ▸ hid⟩, hcompleted₀, ⟨validUntil, ?_, h.now_le.trans_lt hlt⟩, ?_⟩
        · rw [← (hkept.completed hcompleted₀).2.1]
          exact hwindow
        · by_contra hinvalid
          exact hkept.invalidated hinvalid hvalid
      rw [hw.requests i r₀ hr₀] at hreplay₀
      cases hreplay₀
    rcases h.adoption with hkept | ⟨request, r₀, v₀, installation, identity, hadopts⟩
    · exact hold (hkept.completions i r hr hcompleted)
    · rcases hadopts.request_cases hr with ⟨-, hr₀⟩ | ⟨rfl, rfl⟩
      · exact hold ⟨r, hr₀, hcompleted⟩
      · obtain ⟨row, hrow, hrowactive, -⟩ := hadopts.completes.inService
        rcases hadopts.invitation_cases hv with ⟨hne, -⟩ | ⟨-, rfl⟩
        · exact hne rfl
        · exact hout row (hid ▸ hrow) hrowactive

/-! ### Every run -/

theorem Sound.step (h : Taken settings s action t) (hs : Sound s) : Sound t where
  single ha hb := single_step h hs ha hb
  flag {id tablet} ht := by
    rcases h.tablet_cases ht with hold | ⟨hactive, hstatus⟩ | ⟨hactive, hstatus, -⟩
    · exact hs.flag hold
    · exact ⟨fun _ => hstatus, fun _ => hactive⟩
    · rw [hactive]
      rcases hstatus with hstatus | hstatus <;> simp [hstatus]
  grants hg := grants_step h hs hg
  linked {i r} hr := by
    have hkept : ∀ id, (s.invitations.find id).isSome = true → (t.invitations.find id).isSome = true := by
      intro id hid
      obtain ⟨v, hv⟩ := Option.isSome_iff_exists.mp hid
      obtain ⟨w, hw, -⟩ := h.invitations.rows hv
      rw [hw]
      rfl
    rcases h.requests.old hr with ⟨-, -, hlinked⟩ | ⟨r₀, hr₀, hrkept⟩
    · exact hkept _ hlinked
    · rw [hrkept.invitation]
      exact hkept _ (hs.linked hr₀)
  withdrawn {id tablet} ht hactive := by
    rcases h.tablet_cases ht with hold | ⟨hin, -⟩ | ⟨-, -, hw⟩
    · exact (hs.withdrawn hold hactive).step h hs hold hactive
    · rw [hactive] at hin
      cases hin
    · exact hw

theorem sound_of_reachable (h : (tabletSystem settings).Reachable s) : Publications.Inv s.delivery.db.core ∧ Sound s := by
  refine tabletSystem_invariant (fun s hs => ?_) (fun s action t hI ht => hI.step ht) h
  obtain ⟨hdeployed, -, -, htablets, hinstallations, -, -, -, -, hrequests, -⟩ := hs
  constructor
  · intro i j a b ha
    rw [hinstallations] at ha
    cases ha
  · intro id tablet ht
    rw [htablets] at ht
    cases ht
  · rintro id ⟨i, g, hg, -⟩
    rw [hdeployed.keyGrants, hdeployed.generationKeyGrants] at hg
    rcases hg with hg | hg <;> cases hg
  · intro i r hr
    rw [hrequests] at hr
    cases hr
  · intro id tablet ht
    rw [htablets] at ht
    cases ht

/-- Ended installations stay ended in all that follows. -/
def EndedStay (s t : Registry) : Prop :=
  ∀ i a, s.fleet.installations.find i = some a → ∃ b, t.fleet.installations.find i = some b ∧ InstallationKept a b

theorem endedStay_later (h : (tabletSystem settings).Reachable s) (hst : (tabletSystem settings).Later s t) :
    EndedStay s t := by
  refine (h.later (R := EndedStay) ?_ ?_ ?_ hst).2
  · exact fun s i a ha => ⟨a, ha, .refl a⟩
  · intro s t u hst htu i a ha
    obtain ⟨b, hb, hab⟩ := hst i a ha
    obtain ⟨c, hc, hbc⟩ := htu i b hb
    exact ⟨c, hc, hab.trans hbc⟩
  · rintro s a t hreach rfl i installation hi
    have htaken : Taken settings s a (s.step settings a) := step_taken (sound_of_reachable hreach).1 a
    exact htaken.installations.rows hi

/-- In every run: a tablet has one current installation at most; revoked and replaced ones never
change again; a tablet moves along the transitions of assets only; it is flagged active just while
it is inactive or active; and one that is lost or retired has no current installation, no usable
invitation, no replayable completion and no key grant in use. -/
theorem installation_lifecycle (h : (tabletSystem settings).Reachable s) :
    (∀ i j a b, s.fleet.installations.find i = some a → s.fleet.installations.find j = some b → a.tablet = b.tablet →
      (a.status = .active ∨ a.status = .stale) → (b.status = .active ∨ b.status = .stale) → i = j) ∧
    (∀ t, (tabletSystem settings).Later s t → ∀ i a, s.fleet.installations.find i = some a →
      (a.status = .revoked ∨ a.status = .replaced) → ∃ b, t.fleet.installations.find i = some b ∧ b.status = a.status) ∧
    (∀ action id tablet, s.fleet.tablets.find id = some tablet →
      ∃ row, (s.step settings action).fleet.tablets.find id = some row ∧
        (row.status = tablet.status ∨ assetTransition tablet.status row.status = true)) ∧
    (∀ id tablet, s.fleet.tablets.find id = some tablet →
      (tablet.active = true ↔ tablet.status = .inactive ∨ tablet.status = .active)) ∧
    ∀ id tablet, s.fleet.tablets.find id = some tablet → (tablet.status = .lost ∨ tablet.status = .retired) →
      Withdrawn s id ∧
      (∀ i a, s.fleet.installations.find i = some a → a.tablet = id → ¬s.delivery.HasGrant i) ∧
      ∀ i r v, s.requests.find i = some r → s.invitations.find r.invitation = some v → v.tablet = id →
        ∀ response credential result, s.replaySuccessfulCompletion settings i response credential ≠ .ok result := by
  obtain ⟨hi, hs⟩ := sound_of_reachable h
  have hcurrent : ∀ {status : InstallationStatus}, status = .active ∨ status = .stale → status.isCurrent = true := by
    rintro status (rfl | rfl) <;> rfl
  refine ⟨fun i j a b ha hb htablet hca hcb => hs.single ha hb htablet (hcurrent hca) (hcurrent hcb), ?_, ?_,
    fun id tablet ht => hs.flag ht, ?_⟩
  · intro t hst i a ha hended
    obtain ⟨b, hb, hkept⟩ := endedStay_later h hst i a ha
    refine ⟨b, hb, hkept.2 ?_⟩
    rcases hended with hended | hended <;> rw [hended] <;> rfl
  · intro action id tablet ht
    have htaken : Taken settings s action (s.step settings action) := step_taken hi action
    obtain ⟨row, hrow, hkept⟩ := htaken.tablets.rows ht
    exact ⟨row, hrow, hkept.2⟩
  · intro id tablet ht hst
    have hinactive : tablet.active = false := by
      rw [← Bool.not_eq_true, hs.flag ht]
      rcases hst with hst | hst <;> rw [hst] <;> decide
    have hw := hs.withdrawn ht hinactive
    refine ⟨hw, fun i a ha hid hgrant => ?_, fun i r v hr hv hid response credential result hok => ?_⟩
    · obtain ⟨b, hb, hcur⟩ := hs.grants hgrant
      rw [ha] at hb
      cases hb
      rw [hw.installations i a ha hid] at hcur
      cases hcur
    · obtain ⟨installationId, t⟩ := result
      obtain ⟨request, invitation, installation, hreplays, -⟩ := replaySuccessfulCompletion_eq_ok hok
      obtain rfl : request = r := Option.some.inj (hreplays.requestRow.symm.trans hr)
      have hreplay : s.replayable id request = true :=
        replayable_eq_true.mpr ⟨⟨v, hv, hid⟩, hreplays.completed, hreplays.window, hreplays.valid⟩
      rw [hw.requests i request hr] at hreplay
      cases hreplay

/-- The adopted tablet of the sample is lost. -/
theorem lostTablet_withdrawn :
    (sampleRun (adoptedTablet ++ [.markTabletLost (fun _ => true) 0])).fleet.tablets.rows =
        [{ department := 1, status := .lost, active := false }] ∧
      (sampleRun (adoptedTablet ++ [.markTabletLost (fun _ => true) 0])).fleet.installations.rows.map (·.status) =
        [.revoked] ∧
      Withdrawn (sampleRun (adoptedTablet ++ [.markTabletLost (fun _ => true) 0])) 0 := by
  have hrow : (sampleRun (adoptedTablet ++ [.markTabletLost (fun _ => true) 0])).fleet.tablets.find 0 =
      some { department := 1, status := .lost, active := false } := by decide +kernel
  refine ⟨by decide +kernel, by decide +kernel, ?_⟩
  obtain ⟨-, -, -, -, hlost⟩ :=
    installation_lifecycle (reachable_sampleRun (adoptedTablet ++ [.markTabletLost (fun _ => true) 0]))
  exact (hlost 0 _ hrow (.inl rfl)).1

end FireDash.Tablets
