import FireDash.Delivery.Workers
import FireDash.Publications.Refinement.Effects

/-! The delivery system as a machine: publication calls, requests of tablets, services of the
fleet and transactions of delivery workers, in any order. -/
namespace FireDash.Delivery

open Publications Tx

/-- The services of the fleet. -/
inductive FleetCall where
  | activateTablet (admin : DepartmentId → Bool) (id : TabletId) (now : Time)
  | deactivateTablet (admin : DepartmentId → Bool) (id : TabletId) (now : Time)
  | markTabletLost (admin : DepartmentId → Bool) (id : TabletId) (now : Time)
  | retireTablet (admin : DepartmentId → Bool) (id : TabletId) (now : Time)
  | recoverTablet (admin : DepartmentId → Bool) (id : TabletId)
  | revokeInstallation (admin : DepartmentId → Bool) (id : InstallationId) (now : Time)
  | completeSuccessfulAdoption (id : TabletId) (appVersion : String) (hpkePublicKey : Bytes) (leaseTarget now : Time)
  | markStaleInstallations (now : Time)
  | retireVehicle (admin : DepartmentId → Bool) (id : VehicleId) (now : Time)
  | assignTabletVehicle (authorized : Bool) (id : TabletId) (vehicle : VehicleId) (effectiveAt now : Time)
  | setVehicleRescueGuidesWebUrl (systemAdmin : Bool) (url : String) (now : Time)
  | editFleet (fleet : Fleet)

def FleetCall.run (settings : Settings) : FleetCall → Service Unit
  | activateTablet admin id now => Delivery.activateTablet admin id now
  | deactivateTablet admin id now => Delivery.deactivateTablet admin id now
  | markTabletLost admin id now => Delivery.markTabletLost admin id now
  | retireTablet admin id now => Delivery.retireTablet admin id now
  | recoverTablet admin id => Delivery.recoverTablet admin id
  | revokeInstallation admin id now => Delivery.revokeInstallation admin id now
  | completeSuccessfulAdoption id appVersion hpkePublicKey leaseTarget now =>
    Delivery.completeSuccessfulAdoption id appVersion hpkePublicKey leaseTarget now
  | markStaleInstallations now => Delivery.markStaleInstallations now
  | retireVehicle admin id now => Delivery.retireVehicle admin id now
  | assignTabletVehicle authorized id vehicle effectiveAt now =>
    Delivery.assignTabletVehicle authorized id vehicle effectiveAt now
  | setVehicleRescueGuidesWebUrl systemAdmin url now => Delivery.setVehicleRescueGuidesWebUrl settings systemAdmin url now
  | editFleet fleet => Delivery.editFleet fleet

/-- A publication service run on the delivery database. -/
def onPublications (x : Publications.Service Unit) : Service Unit := fun s =>
  let (r, db) := x s.db
  (r, { s with db := db })

/-- The transactions of the delivery system. -/
inductive Action where
  | publication (env : Env) (call : Call)
  | fleet (call : FleetCall)
  | requestDatasetKeyGrant (publication : PublicationId) (installation : InstallationId) (retryFailed : Bool) (now : Time)
  | requestManifest (installation : InstallationId) (generation : ℕ) (now clock : Time)
  | requestGenerationKeyGrant (publication : PublicationId) (installation : InstallationId) (now : Time)
  | claimNextDatasetKeyGrant (locked : List ℕ)
  | buildClaimedDatasetKeyGrant (worker : DeliveryWorker) (id : ℕ) (now : Time)
  | claimNextSignedManifest (excludeIds locked : List ℕ)
  | buildClaimedSignedManifest (worker : DeliveryWorker) (id : ℕ) (now clock : Time)
  | processNextGenerationKeyGrant (worker : DeliveryWorker) (locked : List ℕ) (now clock : Time)

/-- The transaction of an action, its result dropped. -/
def Action.run (crypto : DeliveryCrypto) (settings : Settings) : Action → Service Unit
  | publication env call => onPublications (call.run settings.publications env)
  | fleet call => call.run settings
  | requestDatasetKeyGrant id installation retryFailed now => do
    let _ ← Delivery.requestDatasetKeyGrant id installation retryFailed now
  | requestManifest installation generation now clock => do
    let _ ← Delivery.requestManifest settings installation generation now clock
  | requestGenerationKeyGrant id installation now => do
    let _ ← Delivery.requestGenerationKeyGrant id installation now
  | claimNextDatasetKeyGrant locked => do let _ ← Delivery.claimNextDatasetKeyGrant locked
  | buildClaimedDatasetKeyGrant worker id now => Delivery.buildClaimedDatasetKeyGrant crypto worker id now
  | claimNextSignedManifest excludeIds locked => do let _ ← Delivery.claimNextSignedManifest excludeIds locked
  | buildClaimedSignedManifest worker id now clock =>
    Delivery.buildClaimedSignedManifest settings crypto worker id now clock
  | processNextGenerationKeyGrant worker locked now clock => do
    let _ ← Delivery.processNextGenerationKeyGrant settings.publications crypto worker locked now clock

variable {s t u : State} {crypto : DeliveryCrypto} {settings : Settings}

theorem FleetCall.upkeep (call : FleetCall) : Upkeep s (exec (call.run settings) s) := by
  cases call with
  | activateTablet admin id now => exact activateTablet_upkeep.exec
  | deactivateTablet admin id now => exact deactivateTablet_upkeep.exec
  | markTabletLost admin id now => exact Frames.exec (x := withdrawTablet .lost admin id now) withdrawTablet_upkeep
  | retireTablet admin id now => exact Frames.exec (x := withdrawTablet .retired admin id now) withdrawTablet_upkeep
  | recoverTablet admin id => exact recoverTablet_upkeep.exec
  | revokeInstallation admin id now => exact revokeInstallation_upkeep.exec
  | completeSuccessfulAdoption id appVersion key leaseTarget now => exact completeSuccessfulAdoption_upkeep.exec
  | markStaleInstallations now => exact markStaleInstallations_upkeep.exec
  | retireVehicle admin id now => exact retireVehicle_upkeep.exec
  | assignTabletVehicle authorized id vehicle effectiveAt now => exact assignTabletVehicle_upkeep.exec
  | setVehicleRescueGuidesWebUrl systemAdmin url now => exact setVehicleRescueGuidesWebUrl_upkeep.exec
  | editFleet fleet => exact editFleet_upkeep.exec

/-! ### What one step can do -/

/-- The effect of a transaction other than a publication call, by its kind. -/
inductive Served (crypto : DeliveryCrypto) (settings : Settings) (s : State) : State → Prop
  | upkeep {t : State} (h : Upkeep s t) : Served crypto settings s t
  | claimGrant {id : ℕ} {g : KeyGrant} (hg : s.db.keyGrants.find id = some g) (hst : g.status = .pending) :
      Served crypto settings s (s.modifyKeyGrant id claimedGrant)
  | endGrant {worker : DeliveryWorker} {id : ℕ} {now : Time} {g : KeyGrant} {outcome : GrantOutcome}
      (hg : s.db.keyGrants.find id = some g) (hst : g.status = .running)
      (ho : grantOutcome (wrapContentKey crypto worker s g now) = .ok outcome) :
      Served crypto settings s (s.modifyKeyGrant id (outcome.store now))
  | claimManifest {id : ℕ} {m : SignedManifest} (hm : s.signedManifests.find id = some m)
      (hst : m.status = .pending) : Served crypto settings s (s.modifyManifest id SignedManifest.claimed)
  | endManifest {id : ℕ} {now : Time} {m : SignedManifest} {u : State} {outcome : ManifestOutcome}
      (hm : s.signedManifests.find id = some m) (hst : m.status = .running) (hu : Prepares crypto s u)
      (hsigns : ∀ payload signature, outcome = .ready payload signature →
        ∃ v context publications publications' grants capabilities,
          Signs settings crypto s v u m now context publications publications' grants capabilities payload) :
      Served crypto settings s (u.modifyManifest id (outcome.store settings.publications now))
  | endGenerationGrant {id : ℕ} {clock : Time} {g : KeyGrant} {outcome : GrantOutcome}
      (hg : s.db.generationKeyGrants.find id = some g) (hst : g.status = .pending ∨ g.status = .running)
      (hready : ∀ encapsulatedKey wrappedKey, outcome = .ready encapsulatedKey wrappedKey →
        ∃ context, authorizedGeneration s g.publication g.appInstallation clock = .ok context) :
      Served crypto settings s ((s.modifyGenerationKeyGrant id fun row => { row with status := .running }).modifyGenerationKeyGrant
        id (outcome.store clock))

/-- The effect of a step. -/
inductive Stepped (crypto : DeliveryCrypto) (settings : Settings) (s : State) : State → Prop
  | publication {db : Db} (he : Effect s.db db) (hi : Inv db.core) : Stepped crypto settings s { s with db := db }
  | served {t : State} (h : Served crypto settings s t) : Stepped crypto settings s t

/-- Dropping the result of a call keeps what is known of its final state. -/
theorem exec_drop {α : Type} {x : Service α} {P : State → Prop} (h : wp x (fun _ t => P t) (fun _ t => P t) s) :
    P (exec (do let _ ← x) s) :=
  exec_of_wp (wp_bind.mpr (wp_mono h (fun _ _ ht => ht) fun _ _ ht => ht))

theorem Action.served (a : Action) : (∃ env call, a = .publication env call) ∨
    Served crypto settings s (exec (a.run crypto settings) s) := by
  have hstay : ∀ t : State, t = s → Served crypto settings s t := fun t ht => ht ▸ .upkeep (.refl t)
  cases a with
  | publication env call => exact .inl ⟨env, call, rfl⟩
  | fleet call => exact .inr (.upkeep call.upkeep)
  | requestDatasetKeyGrant id installation retryFailed now =>
    refine .inr (exec_drop (wp_mono requestDatasetKeyGrant_requests (fun _ t ht => ?_) fun _ t ht => hstay t ht))
    exact .upkeep ht.1.upkeep
  | requestManifest installation generation now clock =>
    exact .inr (exec_drop (wp_mono requestManifest_spec (fun _ t ht => .upkeep ht.1) fun _ t ht => hstay t ht))
  | requestGenerationKeyGrant id installation now =>
    exact .inr (exec_drop (wp_mono requestGenerationKeyGrant_upkeep (fun _ t ht => .upkeep ht) fun _ t ht => .upkeep ht))
  | claimNextDatasetKeyGrant locked =>
    refine .inr (exec_drop (wp_mono claimNextDatasetKeyGrant_spec (fun _ t ht => ?_) fun _ _ hf => hf.elim))
    rcases ht with ⟨-, ht⟩ | ⟨id, g, -, hg, hst, rfl⟩
    · exact hstay t ht
    · exact .claimGrant hg hst
  | buildClaimedDatasetKeyGrant worker id now =>
    refine .inr (exec_of_wp (wp_mono buildClaimedDatasetKeyGrant_spec (fun _ t ht => ?_) fun _ t ht => hstay t ht.1))
    obtain ⟨g, hg, ⟨-, ht⟩ | ⟨hst, outcome, ho, rfl⟩⟩ := ht
    · exact hstay t ht
    · exact .endGrant hg hst ho
  | claimNextSignedManifest excludeIds locked =>
    refine .inr (exec_drop (wp_mono claimNextSignedManifest_spec (fun _ t ht => ?_) fun _ _ hf => hf.elim))
    rcases ht with ⟨-, ht⟩ | ⟨id, m, -, hm, hst, rfl⟩
    · exact hstay t ht
    · exact .claimManifest hm hst
  | buildClaimedSignedManifest worker id now clock =>
    refine .inr (exec_of_wp (wp_mono buildClaimedSignedManifest_spec (fun _ t ht => ?_) fun _ t ht => hstay t ht))
    obtain ⟨m, hm, ⟨-, ht⟩ | ⟨hst, u, outcome, hu, rfl, hsigns⟩⟩ := ht
    · exact hstay t ht
    · exact .endManifest hm hst hu hsigns
  | processNextGenerationKeyGrant worker locked now clock =>
    refine .inr (exec_drop (wp_mono processNextGenerationKeyGrant_spec (fun _ t ht => ?_) fun _ t ht => hstay t ht))
    rcases ht with ⟨-, ht⟩ | ⟨id, g, outcome, -, hg, hst, rfl, hready⟩
    · exact hstay t ht
    · exact .endGenerationGrant hg hst hready

theorem Action.stepped (a : Action) (h : Inv s.db.core) : Stepped crypto settings s (exec (a.run crypto settings) s) := by
  rcases a.served with ⟨env, call, rfl⟩ | hs
  · exact .publication (call.effect h) ((call.steps h).inv h)
  · exact .served hs

/-! ### The machine -/

/-- A deployment before its first delivery: migrated publications whose ready rows can be
delivered, no grant and no manifest yet. -/
structure Deployed (s : State) : Prop where
  migrated : ∃ cfg, Migrated cfg s.db
  deliverable : ∀ {id p}, s.db.publications.find id = some p → p.artifactStatus = .ready →
    p.Deliverable s.db.documents id
  marked : ∀ id ∈ s.legacyUpgrades, ∃ p, s.db.publications.find id = some p ∧ p.status.isFinished = true ∧
    p.artifact.path.isSome = true
  wellFormed : s.fleet.wellFormed = true
  keyGrants : s.db.keyGrants = ⟨[]⟩
  generationKeyGrants : s.db.generationKeyGrants = ⟨[]⟩
  signedManifests : s.signedManifests = ⟨[]⟩

/-- Each step is one transaction under the settings of its process, which all hash states alike. -/
def delivery (crypto : DeliveryCrypto) (hash : ManifestState → String) : Machine State (Settings × Action) where
  init := Deployed
  step s a t := a.1.stateHash = hash ∧ t = exec (a.2.run crypto a.1) s

/-! ### Invariants of every run -/

theorem Resigned.columns {p q : Publication} (h : Resigned crypto p q) :
    q.scopeState = p.scopeState ∧ q.key = p.key ∧ q.status = p.status := by
  obtain ⟨key, text, version, rfl⟩ := h
  exact ⟨rfl, rfl, rfl⟩

/-- The rows of a signed-again table are the old ones, or signed again. -/
theorem Resigns.row (h : Resigns crypto s t) {id : PublicationId} {q : Publication}
    (hq : t.db.publications.find id = some q) :
    ∃ p, s.db.publications.find id = some p ∧ (q = p ∨ Resigned crypto p q) := by
  cases hp : s.db.publications.find id with
  | none =>
    rw [h.fresh hp] at hq
    cases hq
  | some p =>
    obtain ⟨q', hq', hpq⟩ := h.rows hp
    rw [hq] at hq'
    cases hq'
    exact ⟨p, rfl, hpq.imp (fun h => h) fun hr => hr.2.2⟩

/-- A row after artifacts were signed again is an old row in all the lifecycle reads. -/
theorem Resigns.old (h : Resigns crypto s t) {id : PublicationId} {q : Publication}
    (hq : t.db.publications.find id = some q) : ∃ p, s.db.publications.find id = some p ∧
      q.scopeState = p.scopeState ∧ q.key = p.key ∧ q.status = p.status := by
  obtain ⟨p, hp, rfl | hpq⟩ := h.row hq
  · exact ⟨q, hp, rfl, rfl, rfl⟩
  · exact ⟨p, hp, hpq.columns⟩

theorem Resigns.new (h : Resigns crypto s t) {id : PublicationId} {p : Publication}
    (hp : s.db.publications.find id = some p) : ∃ q, t.db.publications.find id = some q ∧
      q.scopeState = p.scopeState ∧ q.key = p.key ∧ q.status = p.status := by
  obtain ⟨q, hq, rfl | ⟨-, -, hpq⟩⟩ := h.rows hp
  · exact ⟨q, hq, rfl, rfl, rfl⟩
  · exact ⟨q, hq, hpq.columns⟩

/-- The links of the lifecycle hold for rows that only changed elsewhere. -/
theorem inv_of_publications {c : Core} {publications : Table Publication} (hi : Publications.Inv c)
    (hold : ∀ {id q}, publications.find id = some q → ∃ p, c.publications.find id = some p ∧
      q.scopeState = p.scopeState ∧ q.key = p.key ∧ q.status = p.status)
    (hnew : ∀ {id p}, c.publications.find id = some p → ∃ q, publications.find id = some q ∧
      q.scopeState = p.scopeState ∧ q.key = p.key ∧ q.status = p.status) :
    Publications.Inv ⟨c.scopes, publications, c.jobs⟩ where
  scope_key := hi.scope_key
  scope_filter := hi.scope_filter
  publication_scope hq := by
    obtain ⟨p, hp, hsc, hk, -⟩ := hold hq
    obtain ⟨a, ha, he⟩ := hi.publication_scope hp
    exact ⟨a, by rw [hsc]; exact ha, he.trans hk.symm⟩
  job_scope := hi.job_scope
  current_published ha hcur := by
    obtain ⟨p, hp, hsc, hst⟩ := hi.current_published ha hcur
    obtain ⟨q, hq, hsc', -, hst'⟩ := hnew hp
    exact ⟨q, hq, hsc'.trans hsc, hst'.trans hst⟩
  published_current hq hst := by
    obtain ⟨p, hp, hsc, -, hst'⟩ := hold hq
    obtain ⟨a, ha, hcur⟩ := hi.published_current hp (hst'.symm.trans hst)
    exact ⟨a, by rw [hsc]; exact ha, hcur⟩
  one_active := hi.one_active
  build_scope hj hb := by
    obtain ⟨p, hp, hsc⟩ := hi.build_scope hj hb
    obtain ⟨q, hq, hsc', -, -⟩ := hnew hp
    exact ⟨q, hq, hsc'.trans hsc⟩
  build_injective := hi.build_injective
  running_building hj hst := by
    obtain ⟨id, p, hb, hp, hstp⟩ := hi.running_building hj hst
    obtain ⟨q, hq, -, -, hst'⟩ := hnew hp
    exact ⟨id, q, hb, hq, hst'.trans hstp⟩
  building_running hq hst := by
    obtain ⟨p, hp, -, -, hst'⟩ := hold hq
    exact hi.building_running hp (hst'.symm.trans hst)

/-- Signing again changes no column the lifecycle reads. -/
theorem Resigns.inv (h : Resigns crypto s t) (hi : Inv s.db.core) : Inv t.db.core := by
  have hcore : t.db.core = ⟨s.db.core.scopes, t.db.publications, s.db.core.jobs⟩ := by
    unfold Db.core
    rw [h.rest]
  rw [hcore]
  exact inv_of_publications hi h.old h.new

theorem Upkeep.core (h : Upkeep s t) : t.db.core = s.db.core := by
  unfold Db.core
  rw [h.db]

theorem Prepares.inv (h : Prepares crypto s t) (hi : Inv s.db.core) : Inv t.db.core := by
  obtain ⟨v, hv, ht⟩ := h
  exact ht.inv (hv.upkeep.core ▸ hi)

theorem Served.inv (h : Served crypto settings s t) (hi : Inv s.db.core) : Inv t.db.core := by
  cases h with
  | upkeep h => exact h.core ▸ hi
  | claimGrant => exact hi
  | endGrant => exact hi
  | claimManifest => exact hi
  | endManifest _ _ hu => exact hu.inv hi
  | endGenerationGrant => exact hi

theorem Stepped.inv (h : Stepped crypto settings s t) (hi : Inv s.db.core) : Inv t.db.core := by
  cases h with
  | publication _ h => exact h
  | served h => exact h.inv hi

theorem Deployed.inv (h : Deployed s) : Inv s.db.core := by
  obtain ⟨cfg, hm⟩ := h.migrated
  exact hm.inv

section Run

variable {hash : ManifestState → String}

theorem delivery_inv (h : (delivery crypto hash).Reachable s) : Inv s.db.core := by
  refine h.invariant (I := fun s : State => Inv s.db.core) (fun _ hd => Deployed.inv hd) ?_
  rintro s ⟨settings, a⟩ t hi ⟨-, rfl⟩
  exact (a.stepped hi).inv hi

/-- Invariant rule of the delivery system: an invariant of the initial deployments that every
kind of step keeps. -/
theorem delivery_invariant {I : State → Prop} (hinit : ∀ s, Deployed s → I s)
    (hstep : ∀ (s t : State) (settings : Settings), settings.stateHash = hash → Publications.Inv s.db.core → I s → Stepped crypto settings s t → I t)
    (h : (delivery crypto hash).Reachable s) : I s := by
  refine (h.invariant (I := fun s : State => Publications.Inv s.db.core ∧ I s) (fun s hd => ⟨Deployed.inv hd, hinit s hd⟩) ?_).2
  rintro s ⟨settings, a⟩ t ⟨hi, hI⟩ ⟨hhash, rfl⟩
  have hs : Stepped crypto settings s (exec (a.run crypto settings) s) := a.stepped hi
  exact ⟨hs.inv hi, hstep s _ settings hhash hi hI hs⟩

end Run

/-! ### Ready grants -/

/-- A ready grant after the moves of requests and withdrawals was ready before them. -/
theorem ready_of_reset {known : State} {grants grants' : Table KeyGrant}
    (h : Table.Evolve ResetGrant (NewGrant known) grants grants') {i : ℕ} {g : KeyGrant}
    (hg : grants'.find i = some g) (hst : g.status = .ready) : grants.find i = some g := by
  rcases h.old hg with ⟨hnew | hnew, -⟩ | ⟨g₀, hg₀, rfl | ⟨hreset | hreset, -⟩⟩
  · rw [hnew] at hst
    cases hst
  · rw [hnew] at hst
    cases hst
  · exact hg₀
  · rw [hreset] at hst
    cases hst
  · rw [hreset] at hst
    cases hst

theorem ready_of_revoked {grants grants' : Table KeyGrant} (h : GrantsRevoked grants grants') {i : ℕ} {g : KeyGrant}
    (hg : grants'.find i = some g) (hst : g.status = .ready) : grants.find i = some g := by
  rcases h.old hg with hold | ⟨_, -, -, -, hrevoked⟩
  · exact hold
  · rw [hrevoked] at hst
    cases hst

theorem Prepares.ready (h : Prepares crypto s t) {i : ℕ} {g : KeyGrant} (hg : t.db.keyGrants.find i = some g)
    (hst : g.status = .ready) : s.db.keyGrants.find i = some g := by
  obtain ⟨v, hv, hr⟩ := h
  have hgrants : t.db.keyGrants = v.db.keyGrants := by rw [hr.rest]
  exact ready_of_reset hv.upkeep.keyGrants (hgrants ▸ hg) hst

theorem Served.readyGrant (hs : Served crypto settings s t) {i : ℕ} {g : KeyGrant}
    (hg : t.db.keyGrants.find i = some g) (hst : g.status = .ready) : s.db.keyGrants.find i = some g ∨
      ∃ g₀ now encapsulatedKey wrappedKey, s.db.keyGrants.find i = some g₀ ∧ g₀.status = .running ∧
        g = (GrantOutcome.ready encapsulatedKey wrappedKey).store now g₀ := by
  have hsame : ∀ {j : ℕ} {f : KeyGrant → KeyGrant}, (s.modifyKeyGrant j f).db.keyGrants.find i = some g →
      i ≠ j → s.db.keyGrants.find i = some g := by
    intro j f hf hne
    simpa [State.modifyKeyGrant, hne.symm] using hf
  cases hs with
  | upkeep hu => exact .inl (ready_of_reset hu.keyGrants hg hst)
  | @claimGrant id g₀ hg₀ hpending =>
    by_cases hid : i = id
    · subst hid
      simp only [State.modifyKeyGrant, Table.find_modify, if_true, hg₀, Option.map_some, Option.some.injEq] at hg
      rw [← hg] at hst
      cases hst
    · exact .inl (hsame hg hid)
  | @endGrant worker id now g₀ outcome hg₀ hrunning ho =>
    by_cases hid : i = id
    · subst hid
      simp only [State.modifyKeyGrant, Table.find_modify, if_true, hg₀, Option.map_some, Option.some.injEq] at hg
      cases outcome with
      | ready encapsulatedKey wrappedKey =>
        exact .inr ⟨g₀, now, encapsulatedKey, wrappedKey, hg₀, hrunning, hg.symm⟩
      | revoked message =>
        rw [← hg] at hst
        cases hst
      | failed message =>
        rw [← hg] at hst
        cases hst
    · exact .inl (hsame hg hid)
  | claimManifest => exact .inl hg
  | endManifest hm hrunning hu hsigns => exact .inl (hu.ready hg hst)
  | endGenerationGrant => exact .inl hg

/-- A dataset grant is ready after a step because it was, or because its build just ended it. -/
theorem Stepped.readyGrant (hs : Stepped crypto settings s t) {i : ℕ} {g : KeyGrant}
    (hg : t.db.keyGrants.find i = some g) (hst : g.status = .ready) : s.db.keyGrants.find i = some g ∨
      ∃ g₀ now encapsulatedKey wrappedKey, s.db.keyGrants.find i = some g₀ ∧ g₀.status = .running ∧
        g = (GrantOutcome.ready encapsulatedKey wrappedKey).store now g₀ := by
  cases hs with
  | publication he hi => exact .inl (ready_of_revoked he.keyGrants hg hst)
  | served hs => exact hs.readyGrant hg hst

/-! ### Ready manifests -/

/-- A ready manifest after requests and withdrawals was ready before them. -/
theorem ready_of_resetManifest {known : State} {manifests manifests' : Table SignedManifest}
    (h : Table.Evolve ResetManifest (NewManifest known) manifests manifests') {i : ℕ} {m : SignedManifest}
    (hm : manifests'.find i = some m) (hst : m.status = .ready) : manifests.find i = some m := by
  rcases h.old hm with ⟨hnew | hnew, -⟩ | ⟨m₀, hm₀, rfl | ⟨hreset | hreset, -⟩⟩
  · rw [hnew] at hst
    cases hst
  · rw [hnew] at hst
    cases hst
  · exact hm₀
  · rw [hreset] at hst
    cases hst
  · rw [hreset] at hst
    cases hst

theorem Prepares.signedManifests (h : Prepares crypto s t) : t.signedManifests = s.signedManifests := by
  obtain ⟨v, hv, hr⟩ := h
  rw [hr.rest, hv.manifests]

/-- How a manifest row came to be signed in the step from `s` to `t`. -/
def SignedIn (crypto : DeliveryCrypto) (settings : Settings) (s t : State) (i : ℕ) (m : SignedManifest) : Prop :=
  ∃ m₀ now payload signature v u context publications publications' grants capabilities,
    s.signedManifests.find i = some m₀ ∧ m₀.status = .running ∧
    m = (ManifestOutcome.ready payload signature).store settings.publications now m₀ ∧
    Signs settings crypto s v u m₀ now context publications publications' grants capabilities payload ∧
    t = u.modifyManifest i ((ManifestOutcome.ready payload signature).store settings.publications now)

/-- A manifest is ready after a step because it was, or because its build just signed it. -/
theorem Stepped.readyManifest (hs : Stepped crypto settings s t) {i : ℕ} {m : SignedManifest}
    (hm : t.signedManifests.find i = some m) (hst : m.status = .ready) :
    s.signedManifests.find i = some m ∨ SignedIn crypto settings s t i m := by
  cases hs with
  | publication => exact .inl hm
  | served hs =>
    cases hs with
    | upkeep hu => exact .inl (ready_of_resetManifest hu.manifests hm hst)
    | claimGrant => exact .inl hm
    | endGrant => exact .inl hm
    | @claimManifest id m₀ hm₀ hpending =>
      by_cases hid : i = id
      · subst hid
        simp only [State.modifyManifest, Table.find_modify, if_true, hm₀, Option.map_some, Option.some.injEq] at hm
        rw [← hm] at hst
        cases hst
      · exact .inl (by simpa [State.modifyManifest, Ne.symm hid] using hm)
    | @endManifest id now m₀ u outcome hm₀ hrunning hu hsigns =>
      simp only [State.modifyManifest, Table.find_modify, hu.signedManifests] at hm
      by_cases hid : i = id
      · subst hid
        rw [if_pos rfl, hm₀, Option.map_some, Option.some.injEq] at hm
        cases outcome with
        | ready payload signature =>
          obtain ⟨v, context, publications, publications', grants, capabilities, hsig⟩ := hsigns _ _ rfl
          exact .inr ⟨m₀, now, payload, signature, v, u, context, publications, publications', grants, capabilities,
            hm₀, hrunning, hm.symm, hsig, rfl⟩
        | obsolete message =>
          rw [← hm] at hst
          cases hst
        | failed message =>
          rw [← hm] at hst
          cases hst
        | waiting =>
          rw [← hm] at hst
          cases hst
      · rw [if_neg (Ne.symm hid)] at hm
        exact .inl hm
    | endGenerationGrant => exact .inl hm

/-! ### A small deployment, for the runs shown with the results -/

theorem reachable_exec {hash : ManifestState → String} (h : (delivery crypto hash).Reachable s)
    (hhash : settings.stateHash = hash) (a : Action) :
    (delivery crypto hash).Reachable (exec (a.run crypto settings) s) :=
  h.next (a := (settings, a)) ⟨hhash, rfl⟩

/-- Run actions one after the other. -/
def runActions (crypto : DeliveryCrypto) (settings : Settings) (s : State) (actions : List Action) : State :=
  actions.foldl (fun s a => exec (a.run crypto settings) s) s

/-- The actions meet a condition whatever state they start from. -/
theorem reachableBy_runActions {C : State → Settings × Action → Prop}
    (h : (delivery crypto settings.stateHash).ReachableBy C s) (actions : List Action)
    (hC : ∀ a ∈ actions, ∀ s, C s (settings, a)) :
    (delivery crypto settings.stateHash).ReachableBy C (runActions crypto settings s actions) := by
  induction actions generalizing s with
  | nil => exact h
  | cons a rest ih =>
    have hnext : (delivery crypto settings.stateHash).ReachableBy C (exec (a.run crypto settings) s) :=
      h.next (a := (settings, a)) (hC a List.mem_cons_self s) ⟨rfl, rfl⟩
    exact ih hnext fun b hb => hC b (List.mem_cons_of_mem a hb)

theorem reachable_runActions (h : (delivery crypto settings.stateHash).Reachable s) (actions : List Action) :
    (delivery crypto settings.stateHash).Reachable (runActions crypto settings s actions) := by
  induction actions generalizing s with
  | nil => exact h
  | cons a rest ih => exact ih (reachable_exec h rfl a)

/-- Wrapping appends the first bytes of the key encryption key, so another key fails to unwrap. -/
def sampleCrypto : DeliveryCrypto where
  sha256 bytes := BitVec.ofNat 256 bytes.length
  aesGcmEncrypt _ _ plaintext := plaintext ++ List.replicate 16 0
  aesKeyWrap kek key := key ++ kek.take 8
  aesKeyUnwrap kek wrapped :=
    if wrapped.drop (wrapped.length - 8) = kek.take 8 then some (wrapped.take (wrapped.length - 8)) else none
  ed25519Sign _ _ := List.replicate 64 1
  validPoint _ := true
  hpkeSeal ephemeral plaintext _ _ := (ephemeral, plaintext ++ ephemeral)
  signManifest _ _ := List.replicate 64 1

/-- States of the runs below differ in the publications they list, or in the asset state. -/
def sampleStateHash (state : ManifestState) : String :=
  (if state.tabletAssetState = .active then "active" else "inactive") ++
    String.join (state.datasets.map fun
      | .document entry => s!" {entry.publicationId}"
      | .artifact entry => s!" {entry.publicationId}")

def sampleSettings : Settings where
  publications := sampleConfig
  stateHash := sampleStateHash
  reportAttachmentMaxBytes := 1000
  reportTransfer := .disabled
  validWebUrl url := url ≠ ""

/-- A worker with 32-byte keys and nothing in its storage. -/
def sampleWorker : DeliveryWorker where
  kek := some (List.replicate 32 7)
  signingKey := some (List.replicate 32 3)
  signingKeyActive := true
  cek := List.replicate 32 4
  nonce := List.replicate 12 5
  generationKey := List.replicate 32 6
  documentKeys _ := (List.replicate 32 4, List.replicate 12 5)
  acceptedPdf _ := none
  storedCiphertext _ := none
  promoted := true
  ephemeral := List.replicate 65 9

/-- The sealed phonebook of department 1, with a content key wrapped under the sample key. -/
def sealedPhonebook (id : PublicationId) : ArtifactMetadata :=
  { phonebookArtifact id with
    nonce := List.replicate 12 0
    wrappedCek := List.replicate 40 7
    signature := List.replicate 64 1 }

/-- Edit the phonebook to `n` entries and publish it as job and publication `k`. -/
def publishPhonebook (now : Time) (n k : ℕ) : List Action :=
  [.publication (phonebookEnv now n) (.markDirty phonebookTarget none),
    .publication (phonebookEnv now n) (.claimJob k),
    .publication (phonebookEnv now n) (.finalizePublicationJob k
      [(.entryCount, countValue n), (.sourceRevision, countValue (k + 1))] (some (sealedPhonebook k))
      (some (BitVec.ofNat 256 n)))]

/-- The tablet gets its first manifest. -/
def servedPhonebook : List Action :=
  publishPhonebook 0 1 0 ++
    [.requestManifest 0 1 1 1, .claimNextDatasetKeyGrant [], .buildClaimedDatasetKeyGrant sampleWorker 0 1,
      .claimNextSignedManifest [] [], .buildClaimedSignedManifest sampleWorker 0 1 1]

theorem deployed_sample : Deployed { fleet := sampleFleet } where
  migrated := ⟨sampleConfig, .empty⟩
  deliverable h := by simp [Table.find] at h
  marked id hid := by cases hid
  wellFormed := by decide +kernel
  keyGrants := rfl
  generationKeyGrants := rfl
  signedManifests := rfl

/-- A run of the sample deployment. -/
def sampleRun (actions : List Action) : State := runActions sampleCrypto sampleSettings { fleet := sampleFleet } actions

theorem reachable_sampleRun (actions : List Action) :
    (delivery sampleCrypto sampleSettings.stateHash).Reachable (sampleRun actions) :=
  reachable_runActions (.init deployed_sample) actions

theorem reachableBy_sampleRun {C : State → Settings × Action → Prop} (actions : List Action)
    (hC : ∀ a ∈ actions, ∀ s, C s (sampleSettings, a)) :
    (delivery sampleCrypto sampleSettings.stateHash).ReachableBy C (sampleRun actions) :=
  reachableBy_runActions (.init deployed_sample) actions hC

end FireDash.Delivery
