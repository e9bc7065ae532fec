import FireDash.Tablets.AssetNumbers

/-! Leases of installations over every run: a lease is never cut short while its installation stays
active, and only a check-in or refresh of an operational tablet moves it. -/
namespace FireDash.Tablets

open Json (Text)
open Publications (Bytes Time DepartmentId day)
open Delivery (Tablet TabletId TabletStatus AppInstallation InstallationId InstallationStatus AppVersion)

variable {settings : Settings} {s t : Registry} {action : Action}

/-! ### What a contact does to a lease -/

/-- The lease of the installation's department, from now on. -/
def Registry.LeaseTarget (s : Registry) (a : AppInstallation) (target : Time) : Prop :=
  ∃ tablet policy, s.fleet.tablets.find a.tablet = some tablet ∧ tablet.status = .active ∧
    s.policies.find tablet.department = some policy ∧ target = s.now + policy.leaseDays * day

/-- The lease a check-in leaves: the old one, or the department's from now on when little of the old one is left. -/
inductive Leased (s : Registry) (a b : AppInstallation) : Prop
  | kept (hvalid : b.authorizationValidUntil = a.authorizationValidUntil) (hstatus : b.status = .active → a.status = .active)
  | renewed (htarget : s.LeaseTarget a b.authorizationValidUntil)
    (hdue : a.status = .active → a.authorizationValidUntil ≤ s.now + autoRenewThreshold)

theorem leaseTarget_eq_ok {tablet : Tablet} {target : Time} (h : s.leaseTarget tablet.department = .ok target) :
    ∃ policy, s.policies.find tablet.department = some policy ∧ target = s.now + policy.leaseDays * day := by
  simp only [Registry.leaseTarget, bind_eq_ok, found_eq_ok, pure_eq_ok] at h
  obtain ⟨policy, hpolicy, rfl⟩ := h
  exact ⟨policy, hpolicy, rfl⟩

theorem requireActiveOperationalTablet_active {id : TabletId} {tablet : Tablet}
    (h : s.requireActiveOperationalTablet id tablet = .ok ()) : tablet.status = .active := by
  simp only [Registry.requireActiveOperationalTablet, bind_eq_ok, check_eq_ok, not_not] at h
  obtain ⟨department, -, -, hactive, -⟩ := h
  exact hactive

theorem recoverStaleInstallation_lease {id : InstallationId} {a b : AppInstallation} {tablet : Tablet}
    (htablet : s.fleet.tablets.find a.tablet = some tablet) (h : s.recoverStaleInstallation id a tablet = .ok b) :
    b.tablet = a.tablet ∧ s.LeaseTarget a b.authorizationValidUntil := by
  simp only [Registry.recoverStaleInstallation, bind_eq_ok, check_eq_ok, pure_eq_ok] at h
  obtain ⟨-, u, hoperational, target, htarget, rfl⟩ := h
  obtain ⟨policy, hpolicy, rfl⟩ := leaseTarget_eq_ok htarget
  exact ⟨rfl, tablet, policy, htablet, requireActiveOperationalTablet_active hoperational, hpolicy, rfl⟩

/-- A renewal on the way keeps the lease unless it is due. -/
theorem renewLeaseIfDue_lease {a b : AppInstallation} {tablet : Tablet} (htablet : s.fleet.tablets.find a.tablet = some tablet)
    (h : s.renewLeaseIfDue a tablet = .ok b) : b = a ∨ b.tablet = a.tablet ∧ b.status = a.status ∧
      s.LeaseTarget a b.authorizationValidUntil ∧ a.authorizationValidUntil ≤ s.now + autoRenewThreshold := by
  unfold Registry.renewLeaseIfDue at h
  split at h
  · cases h
    exact .inl rfl
  · rename_i hdue
    simp only [not_or, not_not, not_lt] at hdue
    simp only [bind_eq_ok, pure_eq_ok] at h
    obtain ⟨target, htarget, rfl⟩ := h
    obtain ⟨policy, hpolicy, rfl⟩ := leaseTarget_eq_ok htarget
    have heligible := hdue.1
    simp only [Registry.eligibleForLeaseRenewal, decide_eq_true_eq] at heligible
    exact .inr ⟨rfl, rfl, ⟨tablet, policy, htablet, heligible.2.2.2.1, hpolicy, rfl⟩, hdue.2⟩

/-- A check-in moves a lease of an operational tablet only, and never brings back another installation. -/
theorem checkedIn_lease {id : InstallationId} {a b : AppInstallation} {appVersion : Option String}
    {minimum : Option AppVersion} (h : s.checkedIn id a appVersion minimum = .ok b) : Leased s a b := by
  have htelemetry : ∀ a : AppInstallation, (Registry.updateAppTelemetry a appVersion).tablet = a.tablet ∧
      (Registry.updateAppTelemetry a appVersion).status = a.status ∧
      (Registry.updateAppTelemetry a appVersion).authorizationValidUntil = a.authorizationValidUntil := by
    intro a
    cases appVersion <;> exact ⟨rfl, rfl, rfl⟩
  simp only [Registry.checkedIn, bind_eq_ok, check_eq_ok, not_not] at h
  obtain ⟨hcurrent, tablet, htablet, h⟩ := h
  have htablet : s.fleet.tablets.find a.tablet = some tablet := found_eq_ok.mp htablet
  split at h
  · -- The tablet is in stock.
    simp only [bind_eq_ok, check_eq_ok, pure_eq_ok] at h
    obtain ⟨department, -, -, -, -, rfl⟩ := h
    obtain ⟨-, hstatus, hvalid⟩ := htelemetry a
    exact .kept hvalid fun hactive => hstatus ▸ hactive
  · generalize hmarked : (if a.status = .active ∧ a.authorizationValidUntil ≤ s.now then
      ({ a with status := .stale } : AppInstallation) else a) = marked at h
    have hcolumns : marked.tablet = a.tablet ∧ marked.authorizationValidUntil = a.authorizationValidUntil ∧
        (marked.status = .active → a.status = .active) ∧
        (a.status = .active → marked.status ≠ .active → a.authorizationValidUntil ≤ s.now) := by
      rw [← hmarked]
      split
      · rename_i hexpired
        refine ⟨rfl, rfl, ?_, fun _ _ => hexpired.2⟩
        intro hstale
        cases hstale
      · exact ⟨rfl, rfl, fun hactive => hactive, fun hactive hnot => absurd hactive hnot⟩
    obtain ⟨hc, hcstatus, hcvalid⟩ := htelemetry marked
    generalize Registry.updateAppTelemetry marked appVersion = c at h hc hcstatus hcvalid
    obtain ⟨hmtablet, hmvalid, hmactive, hmexpired⟩ := hcolumns
    have hctablet : c.tablet = a.tablet := hc.trans hmtablet
    have hvalid : c.authorizationValidUntil = a.authorizationValidUntil := hcvalid.trans hmvalid
    have hactive : c.status = .active → a.status = .active := fun hca => hmactive (hcstatus ▸ hca)
    have hexpired : a.status = .active → c.status ≠ .active → a.authorizationValidUntil ≤ s.now :=
      fun ha hnot => hmexpired ha (hcstatus ▸ hnot)
    simp only [bind_eq_ok] at h
    obtain ⟨blocked, -, h⟩ := h
    split at h
    · cases h
      exact .kept hvalid hactive
    · split at h
      · -- An installation that was stale, or that this check-in found expired, is recovered.
        rename_i hstale
        simp only [bind_eq_ok] at h
        obtain ⟨d, hd, h⟩ := h
        obtain ⟨hdtablet, htarget⟩ := recoverStaleInstallation_lease (hctablet ▸ htablet) hd
        have hnear : a.status = .active → a.authorizationValidUntil ≤ s.now + autoRenewThreshold := by
          intro ha
          have hle := hexpired ha (by rw [hstale]; decide)
          exact hle.trans (Nat.le_add_right _ _)
        have hsame : s.LeaseTarget c = s.LeaseTarget a := by
          unfold Registry.LeaseTarget
          rw [hctablet]
        rcases renewLeaseIfDue_lease (hdtablet ▸ hctablet ▸ htablet) h with rfl | ⟨-, -, hagain, -⟩
        · exact .renewed (hsame ▸ htarget) hnear
        · refine .renewed ?_ hnear
          unfold Registry.LeaseTarget at hagain ⊢
          rw [hdtablet, hctablet] at hagain
          exact hagain
      · simp only [bind_eq_ok] at h
        obtain ⟨-, -, h⟩ := h
        rcases renewLeaseIfDue_lease (hctablet ▸ htablet) h with rfl | ⟨-, -, htarget, hdue⟩
        · exact .kept hvalid hactive
        · refine .renewed ?_ fun _ => hvalid ▸ hdue
          unfold Registry.LeaseTarget at htarget ⊢
          rw [hctablet] at htarget
          exact htarget

/-- A refresh gives the department's lease unless the old one lasts longer, or an outdated app is turned away. -/
theorem refreshed_lease {a b : AppInstallation} {appVersion : Option String} {minimum : Option AppVersion}
    (h : s.refreshed a appVersion minimum = .ok b) : a.status = .active ∧ ∃ target, s.LeaseTarget a target ∧
      (b.authorizationValidUntil = a.authorizationValidUntil ∨
        b.authorizationValidUntil = max a.authorizationValidUntil target) := by
  simp only [Registry.refreshed, bind_eq_ok, check_eq_ok, not_or, not_not] at h
  obtain ⟨⟨hactive, -⟩, tablet, htablet, u, -, heligible, target, htarget, blocked, -, h⟩ := h
  have htablet : s.fleet.tablets.find a.tablet = some tablet := found_eq_ok.mp htablet
  obtain ⟨policy, hpolicy, rfl⟩ := leaseTarget_eq_ok htarget
  simp only [Registry.eligibleForLeaseRenewal, decide_eq_true_eq] at heligible
  have hvalid : (Registry.updateAppTelemetry a appVersion).authorizationValidUntil = a.authorizationValidUntil := by
    cases appVersion <;> rfl
  refine ⟨hactive, _, ⟨tablet, policy, htablet, heligible.2.2.2.1, hpolicy, rfl⟩, ?_⟩
  split at h
  · cases h
    exact .inl hvalid
  · cases h
    exact .inr (by rw [hvalid])

/-! ### Every run -/

/-- The database accepts a lease of three days or more. -/
def Action.Leases : Action → Prop
  | .editDepartments _ policies _ _ => ∀ id policy, policies.find id = some policy → 3 ≤ policy.leaseDays
  | _ => True

/-- Every department leases for three days or more. -/
def LeaseFloor (s : Registry) : Prop := ∀ id policy, s.policies.find id = some policy → 3 ≤ policy.leaseDays

/-- The tablet system on a database that keeps the floor. -/
def leasing (settings : Settings) : Machine Registry Action where
  init s := (tabletSystem settings).init s ∧ LeaseFloor s
  step s action t := action.Leases ∧ t = s.step settings action

/-- The effect of a step on the lease of an installation. -/
inductive LeaseMoved (s : Registry) (action : Action) (i : InstallationId) (a b : AppInstallation) : Prop
  | kept (h : b.authorizationValidUntil = a.authorizationValidUntil)
  | checkedIn (hcontact : action.contacted = some i) (h : Leased s a b)
  | refreshed (hcontact : action.contacted = some i) {target : Time} (htarget : s.LeaseTarget a target)
    (h : b.authorizationValidUntil = max a.authorizationValidUntil target)

theorem setInstallation_rows {i : InstallationId} {a : AppInstallation} (ha : s.fleet.installations.find i = some a)
    (id : InstallationId) (b : AppInstallation) :
    (id = i ∧ (s.setInstallation id fun _ => b).fleet.installations.find i = some b) ∨
      (id ≠ i ∧ (s.setInstallation id fun _ => b).fleet.installations.find i = some a) := by
  change _ ∧ (s.fleet.installations.modify id fun _ => b).find i = _ ∨ _ ∧ (s.fleet.installations.modify id fun _ => b).find i = _
  rw [Table.find_modify]
  by_cases hid : id = i
  · rw [if_pos hid, ha]
    exact .inl ⟨hid, rfl⟩
  · rw [if_neg hid]
    exact .inr ⟨hid, ha⟩

theorem run_lease (hi : Publications.Inv s.delivery.db.core) (h : s.run settings action = .ok t) {i : InstallationId}
    {a : AppInstallation} (ha : s.fleet.installations.find i = some a) :
    ∃ b, t.fleet.installations.find i = some b ∧ LeaseMoved s action i a b := by
  have hother : action.contacted = none → action.editsDepartments = false → action.registers = false →
      ∃ b, t.fleet.installations.find i = some b ∧ LeaseMoved s action i a b := by
    intro hcontact hedit hregister
    obtain ⟨b, hb, hvalid⟩ := (run_undisturbed hi h hcontact hedit hregister).installations.rows ha
    exact ⟨b, hb, .kept hvalid⟩
  cases action with
  | checkIn id credential appVersion minimum =>
    simp only [Registry.run, Registry.checkIn, bind_eq_ok, pure_eq_ok] at h
    obtain ⟨a', ha', b, hb, rfl⟩ := h
    rcases setInstallation_rows ha id b with ⟨rfl, hrow⟩ | ⟨-, hrow⟩
    · obtain rfl : a = a' := Option.some.inj (ha.symm.trans (authenticated_eq_ok ha'))
      exact ⟨b, hrow, .checkedIn rfl (checkedIn_lease hb)⟩
    · exact ⟨a, hrow, .kept rfl⟩
  | refreshInstallationLease id credential appVersion minimum =>
    simp only [Registry.run, Registry.refreshInstallationLease, bind_eq_ok, pure_eq_ok] at h
    obtain ⟨a', ha', b, hb, rfl⟩ := h
    rcases setInstallation_rows ha id b with ⟨rfl, hrow⟩ | ⟨-, hrow⟩
    · obtain rfl : a = a' := Option.some.inj (ha.symm.trans (authenticated_eq_ok ha'))
      obtain ⟨-, target, htarget, hvalid | hvalid⟩ := refreshed_lease hb
      · exact ⟨b, hrow, .kept hvalid⟩
      · exact ⟨b, hrow, .refreshed rfl htarget hvalid⟩
    · exact ⟨a, hrow, .kept rfl⟩
  | editDepartments departments policies features minimumAppVersion =>
    simp only [Registry.run] at h
    split at h
    · cases h
      exact ⟨a, ha, .kept rfl⟩
    · cases h
  | createTablet admin department displayName assetNumber =>
    obtain ⟨policy, -, ⟨-, sequence, -, rfl⟩ | ⟨-, rfl⟩⟩ := createTablet_eq_ok h
    · exact ⟨a, ha, .kept rfl⟩
    · exact ⟨a, ha, .kept rfl⟩
  | _ => exact hother rfl rfl rfl

theorem step_lease (hi : Publications.Inv s.delivery.db.core) (action : Action) {i : InstallationId} {a : AppInstallation}
    (ha : s.fleet.installations.find i = some a) :
    ∃ b, (s.step settings action).fleet.installations.find i = some b ∧ LeaseMoved s action i a b := by
  unfold Registry.step
  cases h : s.run settings action with
  | ok t => exact run_lease hi h ha
  | error e => exact ⟨a, ha, .kept rfl⟩

theorem step_leaseFloor (hi : Publications.Inv s.delivery.db.core) (hs : LeaseFloor s) (haction : action.Leases) :
    LeaseFloor (s.step settings action) := by
  unfold Registry.step
  cases h : s.run settings action with
  | error e => exact hs
  | ok t =>
    have hother : action.contacted = none → action.editsDepartments = false → action.registers = false → LeaseFloor t := by
      intro hcontact hedit hregister id policy hp
      rw [(run_undisturbed hi h hcontact hedit hregister).policies] at hp
      exact hs id policy hp
    cases action with
    | checkIn id credential appVersion minimum =>
      simp only [Registry.run, Registry.checkIn, bind_eq_ok, pure_eq_ok] at h
      obtain ⟨a, -, b, -, rfl⟩ := h
      exact hs
    | refreshInstallationLease id credential appVersion minimum =>
      simp only [Registry.run, Registry.refreshInstallationLease, bind_eq_ok, pure_eq_ok] at h
      obtain ⟨a, -, b, -, rfl⟩ := h
      exact hs
    | editDepartments departments policies features minimumAppVersion =>
      simp only [Registry.run] at h
      split at h
      · cases h
        exact haction
      · cases h
    | createTablet admin department displayName assetNumber =>
      obtain ⟨policy, hpolicy, ⟨-, sequence, -, rfl⟩ | ⟨-, rfl⟩⟩ := createTablet_eq_ok h
      · intro id p hp
        change (s.policies.modify department _).find id = some p at hp
        rw [Table.find_modify] at hp
        split at hp
        · obtain ⟨-, -, rfl⟩ := Option.map_eq_some_iff.mp hp
          exact hs department policy hpolicy
        · exact hs id p hp
      · exact hs
    | _ => exact hother rfl rfl rfl

theorem leasing_reachable (h : (leasing settings).Reachable s) : (tabletSystem settings).Reachable s ∧ LeaseFloor s := by
  obtain ⟨s₀, trace, hrun⟩ := h
  induction hrun with
  | start h => exact ⟨.init h.1, h.2⟩
  | @next t t' trace action hrun hstep ih =>
    obtain ⟨hreach, hfloor⟩ := ih
    obtain ⟨haction, rfl⟩ := hstep
    exact ⟨hreach.next rfl, step_leaseFloor (sound_of_reachable hreach).1 hfloor haction⟩

/-- Three days are more than what is left when a check-in renews a lease. -/
theorem autoRenewThreshold_le {days : ℕ} (h : 3 ≤ days) : autoRenewThreshold ≤ days * day := by
  have hday : autoRenewThreshold = 2 * day := rfl
  rw [hday]
  exact Nat.mul_le_mul_right day (by omega)

/-- No step shortens a lease of an active installation. -/
theorem LeaseMoved.le (hs : LeaseFloor s) {i : InstallationId} {a b : AppInstallation} (h : LeaseMoved s action i a b)
    (hactive : a.status = .active) : a.authorizationValidUntil ≤ b.authorizationValidUntil := by
  cases h with
  | kept h => exact h.ge
  | checkedIn hcontact h =>
    cases h with
    | kept hvalid hstatus => exact hvalid.ge
    | renewed htarget hdue =>
      obtain ⟨tablet, policy, -, -, hpolicy, htarget⟩ := htarget
      have hthreshold := autoRenewThreshold_le (hs _ policy hpolicy)
      rw [htarget]
      exact (hdue hactive).trans (Nat.add_le_add_left hthreshold s.now)
  | refreshed hcontact htarget h =>
    rw [h]
    exact Nat.le_max_left _ _

/-- A step that moves a lease gives the department's lease from now on. -/
theorem LeaseMoved.target {i : InstallationId} {a b : AppInstallation} (h : LeaseMoved s action i a b)
    (hmoved : b.authorizationValidUntil ≠ a.authorizationValidUntil) : s.LeaseTarget a b.authorizationValidUntil := by
  cases h with
  | kept h => exact absurd h hmoved
  | checkedIn hcontact h =>
    cases h with
    | kept hvalid hstatus => exact absurd hvalid hmoved
    | renewed htarget hdue => exact htarget
  | refreshed hcontact htarget h =>
    rcases max_choice a.authorizationValidUntil _ with hmax | hmax
    · exact absurd (h.trans hmax) hmoved
    · rw [h, hmax]
      exact htarget

/-- The installation is active. -/
def Active (i : InstallationId) (s : Registry) : Prop := ∃ a, s.fleet.installations.find i = some a ∧ a.status = .active

theorem leases_grow (h : (leasing settings).Reachable s) {i : InstallationId} {actions : List Action} {a b : AppInstallation}
    (hactions : ∀ e ∈ Machine.steps (Registry.step settings) s actions, e.2.1.Leases ∧ Active i e.1)
    (ha : s.fleet.installations.find i = some a)
    (hb : (actions.foldl (Registry.step settings) s).fleet.installations.find i = some b) :
    a.authorizationValidUntil ≤ b.authorizationValidUntil := by
  induction actions generalizing s a with
  | nil =>
    obtain rfl : a = b := Option.some.inj (ha.symm.trans hb)
    exact le_rfl
  | cons action rest ih =>
    obtain ⟨haction, hactive⟩ := hactions (s, action, s.step settings action) List.mem_cons_self
    obtain ⟨hreach, hfloor⟩ := leasing_reachable h
    obtain ⟨c, hc, hmoved⟩ := step_lease (sound_of_reachable hreach).1 action ha
    obtain ⟨a', ha', hstatus⟩ := hactive
    obtain rfl : a = a' := Option.some.inj (ha.symm.trans ha')
    have hnext : (leasing settings).Reachable (s.step settings action) := h.next ⟨haction, rfl⟩
    have hrest := ih hnext (fun e he => hactions e (List.mem_cons_of_mem _ he)) hc hb
    exact (hmoved.le hfloor hstatus).trans hrest

/-- In every run on a database that keeps the floor: the lease of an installation grows while it stays active;
a step that moves a lease sets it to the department's lease from now on; and a check-in of a tablet
out of service neither moves the lease nor makes its installation active. -/
theorem leases_kept (h : (leasing settings).Reachable s) :
    (∀ i actions a b, (∀ e ∈ Machine.steps (Registry.step settings) s actions, e.2.1.Leases ∧ Active i e.1 ∧ Active i e.2.2) →
      s.fleet.installations.find i = some a →
      (actions.foldl (Registry.step settings) s).fleet.installations.find i = some b →
      a.authorizationValidUntil ≤ b.authorizationValidUntil) ∧
    (∀ action i a b, s.fleet.installations.find i = some a → (s.step settings action).fleet.installations.find i = some b →
      b.authorizationValidUntil ≠ a.authorizationValidUntil → action.contacted = some i ∧
        ∃ tablet policy, s.fleet.tablets.find a.tablet = some tablet ∧ s.policies.find tablet.department = some policy ∧
          b.authorizationValidUntil = s.now + policy.leaseDays * day) ∧
    ∀ i credential appVersion minimum a b tablet, s.fleet.installations.find i = some a →
      s.fleet.tablets.find a.tablet = some tablet → tablet.status ≠ .active →
      (s.step settings (.checkIn i credential appVersion minimum)).fleet.installations.find i = some b →
      b.authorizationValidUntil = a.authorizationValidUntil ∧ (b.status = .active → a.status = .active) := by
  have hi := (sound_of_reachable (leasing_reachable h).1).1
  refine ⟨fun i actions a b hactions => leases_grow h fun e he => ⟨(hactions e he).1, (hactions e he).2.1⟩, ?_, ?_⟩
  · intro action i a b ha hb hne
    obtain ⟨c, hc, hmoved⟩ := step_lease hi action ha
    obtain rfl : c = b := Option.some.inj (hc.symm.trans hb)
    obtain ⟨tablet, policy, htablet, -, hpolicy, htarget⟩ := hmoved.target hne
    refine ⟨?_, tablet, policy, htablet, hpolicy, htarget⟩
    cases hmoved with
    | kept hvalid => exact absurd hvalid hne
    | checkedIn hcontact _ => exact hcontact
    | refreshed hcontact _ _ => exact hcontact
  · intro i credential appVersion minimum a b tablet ha htablet hout hb
    unfold Registry.step at hb
    cases hrun : s.run settings (.checkIn i credential appVersion minimum) with
    | error e =>
      rw [hrun] at hb
      obtain rfl : a = b := Option.some.inj (ha.symm.trans hb)
      exact ⟨rfl, fun hactive => hactive⟩
    | ok t =>
      rw [hrun] at hb
      simp only [Registry.run, Registry.checkIn, bind_eq_ok, pure_eq_ok] at hrun
      obtain ⟨a', ha', c, hc, rfl⟩ := hrun
      obtain rfl : a = a' := Option.some.inj (ha.symm.trans (authenticated_eq_ok ha'))
      rcases setInstallation_rows ha i c with ⟨-, hrow⟩ | ⟨hne, -⟩
      · obtain rfl : c = b := Option.some.inj (hrow.symm.trans hb)
        cases checkedIn_lease hc with
        | kept hvalid hstatus => exact ⟨hvalid, hstatus⟩
        | renewed htarget hdue =>
          obtain ⟨row, -, hrow, hactive, -⟩ := htarget
          rw [htablet] at hrow
          cases hrow
          exact absurd hactive hout
      · exact absurd rfl hne

/-- A run of the sample deployment on the floor. -/
theorem leasing_sampleRun (actions : List Action) (hactions : ∀ a ∈ actions, a.Leases) {s : Registry}
    (h : (leasing sampleSettings).Reachable s) :
    (leasing sampleSettings).Reachable (actions.foldl (Registry.step sampleSettings) s) := by
  induction actions generalizing s with
  | nil => exact h
  | cons action rest ih =>
    have hnext : (leasing sampleSettings).Reachable (s.step sampleSettings action) :=
      h.next ⟨hactions action List.mem_cons_self, rfl⟩
    exact ih (fun a ha => hactions a (List.mem_cons_of_mem _ ha)) hnext

theorem leaseFloor_of_rows (h : ∀ policy ∈ s.policies.rows, 3 ≤ policy.leaseDays) : LeaseFloor s :=
  fun _ policy hp => h policy (List.mem_of_getElem? hp)

/-- The departments of the sample shorten their leases to the floor. -/
def shortenLeases : Action := .editDepartments ⟨[{}, {}]⟩ ⟨[{ leaseDays := 3 }, { leaseDays := 3 }]⟩ [] none

theorem leasing_shortened : (leasing sampleSettings).Reachable (sampleRun (adoptedTablet ++ [shortenLeases])) := by
  refine leasing_sampleRun _ ?_ (.init ⟨init_sampleRegistry, leaseFloor_of_rows (by decide)⟩)
  intro action haction
  rcases List.mem_append.mp haction with haction | haction
  · simp only [adoptedTablet, assignedTablet, List.cons_append, List.nil_append, List.mem_cons, List.not_mem_nil, or_false] at haction
    rcases haction with rfl | rfl | rfl | rfl | rfl | rfl | rfl | rfl | rfl <;> trivial
  · obtain rfl := List.mem_singleton.mp haction
    exact fun _ policy hp => (by decide : ∀ policy ∈ [({ leaseDays := 3 } : TabletPolicy), { leaseDays := 3 }], 3 ≤ policy.leaseDays)
      policy (List.mem_of_getElem? hp)

/-- A refresh right after that keeps the seven days of the old lease. -/
theorem refresh_keeps_longer :
    ((sampleRun (adoptedTablet ++ [shortenLeases])).run sampleSettings (.refreshInstallationLease 0 [66] none none)).map
        (fun t => (t.fleet.installations.find 0).map (·.authorizationValidUntil)) = .ok (some (7 * day)) ∧
      (sampleRun (adoptedTablet ++ [shortenLeases])).now = 0 ∧
      ((sampleRun (adoptedTablet ++ [shortenLeases])).policies.find 1).map (·.leaseDays) = some 3 := by
  decide +kernel

theorem active_of_status {i : InstallationId} (h : (s.fleet.installations.find i).map (·.status) = some .active) : Active i s := by
  obtain ⟨a, ha, hstatus⟩ := Option.map_eq_some_iff.mp h
  exact ⟨a, ha, hstatus⟩

/-- Six days later a check-in renews the lease, now for the three days of the department. -/
def lateCheckIn : List Action := [.tick (6 * day), .checkIn 0 [66] none none]

theorem shortened_grows : ∃ a b, (sampleRun (adoptedTablet ++ [shortenLeases])).fleet.installations.find 0 = some a ∧
    (lateCheckIn.foldl (Registry.step sampleSettings) (sampleRun (adoptedTablet ++ [shortenLeases]))).fleet.installations.find 0 =
      some b ∧
    a.authorizationValidUntil = 7 * day ∧ b.authorizationValidUntil = 9 * day ∧
      a.authorizationValidUntil ≤ b.authorizationValidUntil := by
  have hbefore : ((sampleRun (adoptedTablet ++ [shortenLeases])).fleet.installations.find 0).map
      (·.authorizationValidUntil) = some (7 * day) := by decide +kernel
  have hafter : ((lateCheckIn.foldl (Registry.step sampleSettings)
      (sampleRun (adoptedTablet ++ [shortenLeases]))).fleet.installations.find 0).map (·.authorizationValidUntil) =
        some (9 * day) := by decide +kernel
  have hstatus : ∀ e ∈ Machine.steps (Registry.step sampleSettings) (sampleRun (adoptedTablet ++ [shortenLeases])) lateCheckIn,
      (e.1.fleet.installations.find 0).map (·.status) = some .active ∧
        (e.2.2.fleet.installations.find 0).map (·.status) = some .active := by decide +kernel
  obtain ⟨a, ha, hvalid⟩ := Option.map_eq_some_iff.mp hbefore
  obtain ⟨b, hb, hvalid'⟩ := Option.map_eq_some_iff.mp hafter
  refine ⟨a, b, ha, hb, hvalid, hvalid', (leases_kept leasing_shortened).1 0 lateCheckIn a b (fun e he => ?_) ha hb⟩
  obtain ⟨hfirst, hsecond⟩ := hstatus e he
  refine ⟨?_, active_of_status hfirst, active_of_status hsecond⟩
  have haction := (Machine.of_mem_steps he).1
  simp only [lateCheckIn, List.mem_cons, List.not_mem_nil, or_false] at haction
  rcases haction with haction | haction <;> rw [haction] <;> trivial

end FireDash.Tablets
