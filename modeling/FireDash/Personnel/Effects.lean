import FireDash.Lib.Machine
import FireDash.Personnel.Services

/-! What each personnel and assignment service may do to the rows, and the runs of these services. -/
namespace FireDash.Personnel

open Json (Text)
open Publications (Actor DepartmentId Time)
open Tx

/-! ### What a service may do -/

section

variable {cfg : Config} {env : Env} {s t : State} {actor : Actor} {id : PersonId} {p : Person}

theorem wp_markDirty {department : DepartmentId} {station : Station} {by' : Option Actor} {Q : Unit → State → Prop}
    {E : Error → State → Prop} (hQ : ∀ db, Q () { s with publications := db }) (hE : ∀ e t, E e t) :
    wp (markDirty cfg env department station by') Q E s := by
  unfold wp markDirty
  cases Publications.markDirty cfg.publications env.publications
    ⟨some department, some ⟨station.id, station.department⟩, .stationPersonnel⟩ by' s.publications with
  | mk r db =>
    cases r with
    | ok _ => exact hQ db
    | error e => exact hE _ _

theorem wp_markStations {department : DepartmentId} {stations : List StationId} {Q : Unit → State → Prop}
    {E : Error → State → Prop} (hQ : ∀ db, Q () { s with publications := db }) (hE : ∀ e t, E e t) :
    wp (markStations cfg env department stations actor) Q E s := by
  have hloop : wp (markStations cfg env department stations actor) (fun _ t => ∃ db, t = { s with publications := db })
      (fun _ _ => True) s := by
    refine wp_forEach (fun _ t => ∃ db, t = { s with publications := db }) stations ⟨s.publications, rfl⟩ ?_
    rintro k _ _ ⟨db, rfl⟩
    simp only [wp_bind, wp_require]
    refine ⟨fun station _ => ?_, fun _ => trivial⟩
    exact wp_markDirty (fun db => ⟨db, rfl⟩) fun _ _ => trivial
  apply wp_mono hloop
  · rintro _ _ ⟨db, rfl⟩
    exact hQ db
  · intro e t _
    exact hE e t

theorem wp_markVisibleStationScopes {Q : Unit → State → Prop} {E : Error → State → Prop}
    (hQ : ∀ db, Q () { s with publications := db }) (hE : ∀ e t, E e t) :
    wp (markVisibleStationScopes cfg env id p actor) Q E s := by
  simp only [markVisibleStationScopes, wp_bind, wp_get]
  exact wp_markStations hQ hE

end

abbrev Verified := PersonId → Option Text

/-- An edit of a person that keeps the lifecycle. -/
inductive Edit (p q : Person) : Prop
  | names (he : q.incidentCommanderEligible = p.incidentCommanderEligible)
      (hm : q.incidentCommanderEmail = p.incidentCommanderEmail) (hv : q.emailVerifiedAt = p.emailVerifiedAt)
  | eligibility (hactive : p.lifecycleStatus = .active) (hm : q.incidentCommanderEmail = p.incidentCommanderEmail)
      (hv : q.emailVerifiedAt = if q.incidentCommanderEligible then p.emailVerifiedAt else none)
  | email (hp : p.incidentCommanderEligible = true) (he : q.incidentCommanderEligible = true)
      (hv : q.emailVerifiedAt = none)

/-- The new assignment of a person who has a home in force afterwards. -/
structure Housed (now : Time) (s t : State) (id : PersonId) (a : StationAssignment) : Prop where
  person : a.person = id
  openHome : a.isOpenHome = true
  current : (currentHome t id now).isSome = true

/-- An active person without a temporary assignment in force departs; a departed one may only be
given the retention it has. -/
def Departs (now : Time) (s : State) (id : PersonId) (p : Person) (retention : Option Time) : Prop :=
  (p.lifecycleStatus = .active ∧ ∀ k a, s.assignments.find k = some a → a.person = id → a.assignmentType = .temporary →
    a.isCurrent now = false) ∨
  (p.lifecycleStatus = .departed ∧ p.retentionUntil = retention)

/-- What a service does to the rows, and which e-mail it records as verified. -/
inductive Effect (now : Time) (s : State) (v : Verified) (t : State) : Verified → Prop
  | free (hp : t.people = s.people) (ha : t.assignments = s.assignments) : Effect now s v t v
  | hired (p : Person) (a : StationAssignment) (hp : t.people = s.people.insert (some p))
      (ha : t.assignments = s.assignments.insert a) (hc : p.consistent = true) (hactive : p.lifecycleStatus = .active)
      (hv : p.emailVerifiedAt = none) (hhome : Housed now s t s.people.nextId a) : Effect now s v t v
  | edited (id : PersonId) (p q : Person) (hfind : s.person id = some p) (hc : q.consistent = true)
      (hp : t.people = s.people.modify id fun _ => some q) (ha : t.assignments = s.assignments)
      (hstatus : q.lifecycleStatus = p.lifecycleStatus) (hret : q.retentionUntil = p.retentionUntil)
      (he : Edit p q) : Effect now s v t v
  | verified (id : PersonId) (p q : Person) (hfind : s.person id = some p) (hc : q.consistent = true)
      (hp : t.people = s.people.modify id fun _ => some q) (ha : t.assignments = s.assignments)
      (hstatus : q.lifecycleStatus = p.lifecycleStatus) (hret : q.retentionUntil = p.retentionUntil)
      (he : p.incidentCommanderEligible = true) (he' : q.incidentCommanderEligible = true)
      (hm : q.incidentCommanderEmail = p.incidentCommanderEmail) :
      Effect now s v t (Function.update v id p.incidentCommanderEmail)
  | deleted (id : PersonId) (hfree : ∀ k a, s.assignments.find k = some a → a.person ≠ id)
      (hp : t.people = s.people.modify id fun _ => none) (ha : t.assignments = s.assignments) : Effect now s v t v
  | transferred (id : PersonId) (p : Person) (k : AssignmentId) (old closed new : StationAssignment)
      (hfind : s.person id = some p) (hactive : p.active = true) (hold : s.assignments.find k = some old)
      (howner : old.person = id) (huntil : closed.validUntil ≠ none)
      (hclosed : closed = { old with validUntil := closed.validUntil, endedAt := some now, endedBy := closed.endedBy })
      (hp : t.people = s.people) (ha : t.assignments = (s.assignments.modify k fun _ => closed).insert new)
      (hfree : ∀ j b, j ≠ k → s.assignments.find j = some b → b.isOpenHome = true → b.person ≠ id)
      (hhome : Housed now s t id new) : Effect now s v t v
  | lent (id : PersonId) (p : Person) (a : StationAssignment) (hfind : s.person id = some p) (hactive : p.active = true)
      (hperson : a.person = id) (htype : a.assignmentType = .temporary) (hfrom : a.validFrom = now)
      (huntil : a.validUntil.isSome = true) (hp : t.people = s.people)
      (ha : t.assignments = s.assignments.insert a) : Effect now s v t v
  | ended (k : AssignmentId) (a : StationAssignment) (by' : Option Actor) (hfind : s.assignments.find k = some a)
      (htype : a.assignmentType = .temporary) (hp : t.people = s.people)
      (ha : t.assignments = s.assignments.modify k fun _ => { a with endedAt := some now, endedBy := by' }) :
      Effect now s v t v
  | offboarded (id : PersonId) (p q : Person) (f : StationAssignment → StationAssignment) (hfind : s.person id = some p)
      (hc : q.consistent = true) (hp : t.people = s.people.modify id fun _ => some q)
      (ha : t.assignments = ⟨s.assignments.rows.map f⟩)
      (hends : ∀ a, a.person = id → a.endedAt = none → a.validUntil = none →
        (f a).person = a.person ∧ (f a).assignmentType = a.assignmentType ∧ (f a).validFrom = a.validFrom ∧
          (f a).validUntil = some now ∧ (f a).endedAt = some now)
      (hkeeps : ∀ a, ¬(a.person = id ∧ a.endedAt = none ∧ a.validUntil = none) → f a = a)
      (hstatus : q.lifecycleStatus = .departed) (he : q.incidentCommanderEligible = false)
      (hm : q.incidentCommanderEmail = none) (hv : q.emailVerifiedAt = none)
      (hdeparts : Departs now s id p q.retentionUntil) : Effect now s v t v
  | anonymized (id : PersonId) (p q : Person) (hfind : s.person id = some p) (hc : q.consistent = true)
      (hp : t.people = s.people.modify id fun _ => some q) (ha : t.assignments = s.assignments)
      (hdeparted : p.lifecycleStatus = .departed) (hstatus : q.lifecycleStatus = .anonymized)
      (hret : q.retentionUntil = p.retentionUntil) (he : q.incidentCommanderEligible = false)
      (hm : q.incidentCommanderEmail = none) (hv : q.emailVerifiedAt = none) : Effect now s v t v

/-! ### The calls -/

inductive Call where
  | createPerson (actor : Actor) (department : Department) (station : Station) (number : Option Text)
      (firstName lastName : Text) (eligible : Bool) (email : Text)
  | updatePerson (actor : Actor) (id : PersonId) (number : Option Text) (firstName lastName : Text)
  | deletePerson (actor : Actor) (id : PersonId)
  | setCommanderEligibility (actor : Actor) (id : PersonId) (eligible : Bool) (station : Option Station)
  | setCommanderEmail (actor : Actor) (id : PersonId) (email : Text)
  | verifyCommanderEmail (actor : Actor) (id : PersonId)
  | setRetentionPolicy (actor : Actor) (department : DepartmentId) (retentionPeriod : ℤ)
  | offboardPerson (actor : Actor) (id : PersonId)
  | anonymizePerson (actor : Actor) (id : PersonId)
  | createPersonWithHome (department : Department) (station : Station) (actor : Actor) (effectiveAt : Option Time)
  | transferHome (id : PersonId) (station : Station) (actor : Actor) (effectiveAt : Option Time)
  | createTemporaryAssignment (id : PersonId) (station : Station) (actor : Actor) (validUntil : Option Time)
      (reason : Text)
  | endTemporaryAssignment (k : AssignmentId) (actor : Option Actor)
  | wait

/-- An administrator offboards a person only as `Departs` says. -/
def Regular (env : Env) (s : State) : Call → Prop
  | .offboardPerson actor id => ∀ p policy, s.person id = some p → env.isDepartmentAdmin actor p.department = true →
      s.policies.find? (fun row => row.department = p.department) = some policy →
        Departs env.now s id p (some (env.now + policy.retentionPeriod))
  | _ => True

/-! ### The services -/

section

variable {cfg : Config} {env : Env} {s t : State} {v : Verified} {actor : Actor} {id : PersonId} {p q : Person}

theorem find_of_person (h : s.person id = some p) : s.people.find id = some (some p) := Option.join_eq_some_iff.mp h

/-- A save and its dirty marks. -/
theorem wp_saveEdit {Q : Unit → State → Prop}
    (hQ : ∀ db, q.consistent = true → Q () { s with people := s.people.modify id fun _ => some q, publications := db }) :
    wp (do savePerson id q; markVisibleStationScopes cfg env id q actor) Q (fun _ _ => True) s := by
  simp only [savePerson, wp_bind, wp_get, wp_ensure, wp_modify]
  refine ⟨fun hc => ?_, fun _ => trivial⟩
  exact wp_markVisibleStationScopes (fun db => hQ db hc.1) fun _ _ => trivial

theorem wp_updatePerson {personnelNumber : Option Text} {firstName lastName : Text} :
    wp (updatePerson cfg env actor id personnelNumber firstName lastName) (fun _ t => Effect env.now s v t v)
      (fun _ t => t = s) s := by
  simp only [updatePerson, lockPerson, requireDepartmentAdmin, wp_atomic, wp_bind, wp_get, wp_require, wp_ensure, implies_true,
    and_true]
  intro p hp _ _ _
  rw [wp_whenever]
  refine ⟨fun _ => wp_saveEdit fun db hc => ?_, fun _ => .free rfl rfl⟩
  exact .edited id p _ hp hc rfl rfl rfl rfl (.names rfl rfl rfl)

theorem wp_setCommanderEligibility {eligible : Bool} {station : Option Station} :
    wp (setCommanderEligibility cfg env actor id eligible station) (fun _ t => Effect env.now s v t v)
      (fun _ t => t = s) s := by
  simp only [setCommanderEligibility, lockPerson, wp_atomic, wp_bind, wp_get, wp_require, wp_ensure, implies_true, and_true]
  intro p hp _ hactive
  rw [wp_whenever]
  refine ⟨fun _ => wp_saveEdit fun db hc => ?_, fun _ => .free rfl rfl⟩
  exact .edited id p _ hp hc rfl rfl rfl rfl (.eligibility hactive rfl rfl)

theorem wp_setCommanderEmail {email : Text} :
    wp (setCommanderEmail cfg env actor id email) (fun _ t => Effect env.now s v t v) (fun _ t => t = s) s := by
  simp only [setCommanderEmail, lockPerson, requireDepartmentAdmin, wp_atomic, wp_bind, wp_get, wp_require, wp_ensure,
    implies_true, and_true]
  intro p hp _ heligible
  rw [wp_whenever]
  refine ⟨fun _ => wp_saveEdit fun db hc => ?_, fun _ => .free rfl rfl⟩
  exact .edited id p _ hp hc rfl rfl rfl rfl (.email heligible heligible rfl)

/-- A verification confirms the stored e-mail, also when it was confirmed before. -/
theorem wp_verifyCommanderEmail (hs : ∀ {p}, s.person id = some p → p.consistent = true) :
    wp (verifyCommanderEmail cfg env actor id)
      (fun _ t => Effect env.now s v t (Function.update v id ((s.person id).bind (·.incidentCommanderEmail))))
      (fun _ t => t = s) s := by
  simp only [verifyCommanderEmail, lockPerson, requireDepartmentAdmin, wp_atomic, wp_bind, wp_get, wp_require,
    wp_ensure, implies_true, and_true]
  intro p hp _ heligible
  rw [wp_whenever, hp, Option.bind_some]
  refine ⟨fun _ => wp_saveEdit fun db hc => ?_, fun _ => ?_⟩
  · exact .verified id p _ hp hc rfl rfl rfl rfl heligible.1 heligible.1 rfl
  · refine .verified id p p hp (hs hp) ?_ rfl rfl rfl heligible.1 heligible.1 rfl
    exact (Table.modify_eq_self (find_of_person hp) rfl).symm

theorem wp_deletePerson :
    wp (deletePerson cfg env actor id) (fun _ t => Effect env.now s v t v) (fun _ t => t = s) s := by
  simp only [deletePerson, lockPerson, requireDepartmentAdmin, wp_atomic, wp_bind, wp_get, wp_require, wp_ensure,
    wp_modify, implies_true, and_true]
  intro p _ _ hfree
  refine wp_markStations (fun db => .deleted id ?_ rfl rfl) fun _ _ => trivial
  intro k a ha
  have hall := List.all_eq_true.mp hfree.1 a (List.mem_of_getElem? ha)
  exact of_decide_eq_true hall

theorem wp_setRetentionPolicy {department : DepartmentId} {period : ℤ} :
    wp (setRetentionPolicy env actor department period) (fun _ t => Effect env.now s v t v) (fun _ t => t = s) s := by
  simp only [setRetentionPolicy, wp_atomic, wp_bind, wp_ensure, wp_get]
  refine ⟨fun _ => ?_, fun _ => trivial⟩
  split
  · exact .free rfl rfl
  · rw [wp_whenever]
    exact ⟨fun _ => .free rfl rfl, fun _ => .free rfl rfl⟩

theorem wp_offboardPerson (hregular : Regular env s (.offboardPerson actor id)) :
    wp (offboardPerson cfg env actor id) (fun _ t => Effect env.now s v t v) (fun _ t => t = s) s := by
  simp only [offboardPerson, lockPerson, requireDepartmentAdmin, endOpenAssignments, savePerson, wp_atomic, wp_bind,
    wp_get, wp_require, wp_ensure, wp_modify, implies_true, and_true]
  intro p hp hadmin policy hpolicy _ hc
  have hdeparts := hregular p policy hp hadmin hpolicy
  refine wp_markStations (fun db => .offboarded id p _ _ hp hc.1 rfl rfl ?_ ?_ rfl rfl rfl rfl hdeparts) fun _ _ => trivial
  · intro a hperson hended huntil
    simp [hperson, hended, huntil]
  · intro a hno
    rw [if_neg]
    simpa only [Bool.and_eq_true, decide_eq_true_eq, Option.isNone_iff_eq_none, and_assoc] using hno

theorem wp_anonymizePerson :
    wp (anonymizePerson cfg env actor id) (fun _ t => Effect env.now s v t v) (fun _ t => t = s) s := by
  simp only [anonymizePerson, lockPerson, requireDepartmentAdmin, wp_atomic, wp_bind, wp_get, wp_require, wp_ensure,
    implies_true, and_true]
  intro p hp _ hdeparted
  refine wp_bind.mp (wp_saveEdit fun db hc => ?_)
  exact .anonymized id p _ hp hc rfl rfl hdeparted.1 rfl rfl rfl rfl rfl

/-- The home a new person starts with. -/
theorem wp_house {a : StationAssignment} {Q : Unit → State → Prop} (hactive : p.active = true)
    (hQ : (s.homeFree a = true) → (currentHome { s with assignments := s.assignments.insert a } id env.now).isSome = true →
      Q () { s with assignments := s.assignments.insert a }) :
    wp (do let _ ← insertAssignment a; ensureCurrentHome env id p) Q (fun _ _ => True) s := by
  simp only [insertAssignment, ensureCurrentHome, wp_bind, wp_get, wp_ensure, wp_modify, wp_pure]
  exact ⟨fun hc => ⟨fun hhome => hQ hc.2 (hhome hactive), fun _ => trivial⟩, fun _ => trivial⟩

theorem free_of_homeFree {a : StationAssignment} (h : s.homeFree a = true) (hopen : a.isOpenHome = true) {j : AssignmentId}
    {b : StationAssignment} (hb : s.assignments.find j = some b) (hbopen : b.isOpenHome = true) : b.person ≠ a.person := by
  simp only [State.homeFree, hopen, Bool.not_true, Bool.false_or] at h
  have hall := List.all_eq_true.mp h b (List.mem_of_getElem? hb)
  simp only [hbopen, Bool.not_true, Bool.false_or, decide_eq_true_eq] at hall
  exact hall

theorem wp_createPerson {department : Department} {station : Station} {number : Option Text} {firstName lastName email : Text}
    {eligible : Bool} :
    wp (createPerson cfg env actor department station number firstName lastName eligible email)
      (fun _ t => Effect env.now s v t v) (fun _ t => t = s) s := by
  simp only [createPerson, requireDepartmentAdmin, insertPerson, wp_atomic, wp_bind, wp_get, wp_ensure, wp_modify,
    wp_pure, implies_true, and_true]
  intro _ _ _ _ hc
  refine wp_bind.mp (wp_house rfl fun _ hhome => ?_)
  refine wp_markDirty (fun db => ?_) fun _ _ => trivial
  exact .hired _ _ rfl rfl hc.1 rfl rfl ⟨rfl, rfl, hhome⟩

theorem wp_createPersonWithHome {department : Department} {station : Station} {effectiveAt : Option Time} :
    wp (createPersonWithHome env department station actor effectiveAt) (fun _ t => Effect env.now s v t v)
      (fun _ t => t = s) s := by
  simp only [createPersonWithHome, insertPerson, wp_atomic, wp_bind, wp_get, wp_ensure, wp_modify, wp_pure, implies_true,
    and_true]
  intro _ _ _ hc
  refine wp_bind.mp (wp_house rfl fun _ hhome => ?_)
  exact .hired _ _ rfl rfl hc.1 rfl rfl ⟨rfl, rfl, hhome⟩

theorem currentHome_eq_some {now : Time} {k : AssignmentId} {a : StationAssignment}
    (h : currentHome s id now = some (k, a)) : s.assignments.find k = some a ∧ a.person = id ∧
      a.assignmentType = .home ∧ a.isCurrent now = true := by
  obtain ⟨hfind, hp⟩ := Table.first_eq_some h
  simp only [Bool.and_eq_true, decide_eq_true_eq] at hp
  exact ⟨hfind, hp.1.1, hp.1.2, hp.2⟩

theorem wp_transferHome {station : Station} {effectiveAt : Option Time} :
    wp (transferHome cfg env id station actor effectiveAt) (fun _ t => Effect env.now s v t v) (fun _ t => t = s) s := by
  simp only [transferHome, lockPerson, requireOperationalAdmin, validatePersonStation, closeAssignment, wp_atomic,
    wp_bind, wp_get, wp_require, wp_ensure, wp_modify, implies_true, and_true]
  intro p hp _ _ hvalid
  rintro ⟨k, old⟩ hcurrent
  obtain ⟨hold, hperson, -, -⟩ := currentHome_eq_some hcurrent
  intro _ _
  simp only [insertAssignment, ensureCurrentHome, wp_bind, wp_get, wp_ensure, wp_modify, wp_pure, implies_true, and_true]
  intro hc hhome previous _
  refine wp_markDirty (fun db => wp_markDirty (fun db' => ?_) fun _ _ => trivial) fun _ _ => trivial
  refine .transferred id p k old _ _ hp hvalid.1 hold hperson (Option.some_ne_none _) rfl rfl rfl ?_
    ⟨rfl, rfl, hhome hvalid.1⟩
  intro j b hj hb hopen
  refine free_of_homeFree (j := j) hc.2 rfl ?_ hopen
  rw [Table.find_modify, if_neg (Ne.symm hj)]
  exact hb

theorem wp_createTemporaryAssignment {station : Station} {validUntil : Option Time} {reason : Text} :
    wp (createTemporaryAssignment cfg env id station actor validUntil reason) (fun _ t => Effect env.now s v t v)
      (fun _ t => t = s) s := by
  simp only [createTemporaryAssignment, lockPerson, requireOperationalAdmin, validatePersonStation, insertAssignment,
    wp_atomic, wp_bind, wp_get, wp_require, wp_ensure, wp_modify, wp_pure, implies_true, and_true]
  intro p hp _ _ hvalid expiry _ _
  refine wp_markDirty (fun db => ?_) fun _ _ => trivial
  exact .lent id p _ hp hvalid.1 rfl rfl rfl rfl rfl rfl

/-- The checks of the administrator who ends an assignment, when there is one. -/
theorem wp_requireAdmins {department : DepartmentId} {by' : Option Actor} :
    wp (forEach (fun user => requireOperationalAdmin env user department) by'.toList) (fun _ t => t = s)
      (fun _ _ => True) s := by
  refine wp_forEach (fun _ t => t = s) by'.toList rfl ?_
  rintro user _ _ rfl
  simp only [requireOperationalAdmin, wp_ensure]
  exact ⟨fun _ => trivial, fun _ => trivial⟩

theorem wp_endTemporaryAssignment {k : AssignmentId} {by' : Option Actor} :
    wp (endTemporaryAssignment cfg env k by') (fun _ t => Effect env.now s v t v) (fun _ t => t = s) s := by
  simp only [endTemporaryAssignment, wp_atomic, wp_bind, wp_get, wp_require, wp_ensure, implies_true, and_true]
  intro a ha p _ htype
  rw [wp_whenever]
  refine ⟨fun _ => ?_, fun _ => .free rfl rfl⟩
  rw [wp_bind]
  refine wp_mono wp_requireAdmins ?_ fun _ _ h => h
  rintro _ _ rfl
  simp only [closeAssignment, wp_bind, wp_ensure, wp_modify, wp_require, implies_true, and_true]
  intro _ station _
  exact wp_markDirty (fun db => .ended k a by' ha htype rfl rfl) fun _ _ => trivial

end

/-! ### Runs -/

/-- The transaction of a call, its result dropped; `wait` only lets time pass. -/
def Call.run (cfg : Config) (env : Env) : Call → Service Unit
  | .createPerson actor department station number firstName lastName eligible email => do
    let _ ← Personnel.createPerson cfg env actor department station number firstName lastName eligible email
  | .updatePerson actor id number firstName lastName => Personnel.updatePerson cfg env actor id number firstName lastName
  | .deletePerson actor id => Personnel.deletePerson cfg env actor id
  | .setCommanderEligibility actor id eligible station =>
    Personnel.setCommanderEligibility cfg env actor id eligible station
  | .setCommanderEmail actor id email => Personnel.setCommanderEmail cfg env actor id email
  | .verifyCommanderEmail actor id => Personnel.verifyCommanderEmail cfg env actor id
  | .setRetentionPolicy actor department period => Personnel.setRetentionPolicy env actor department period
  | .offboardPerson actor id => Personnel.offboardPerson cfg env actor id
  | .anonymizePerson actor id => Personnel.anonymizePerson cfg env actor id
  | .createPersonWithHome department station actor effectiveAt => do
    let _ ← Personnel.createPersonWithHome env department station actor effectiveAt
  | .transferHome id station actor effectiveAt => do
    let _ ← Personnel.transferHome cfg env id station actor effectiveAt
  | .createTemporaryAssignment id station actor validUntil reason => do
    let _ ← Personnel.createTemporaryAssignment cfg env id station actor validUntil reason
  | .endTemporaryAssignment k actor => Personnel.endTemporaryAssignment cfg env k actor
  | .wait => pure ()

/-- The rows, the clock, and the e-mail that each person's last verification confirmed. -/
structure World where
  state : State := {}
  clock : Time := 0
  verified : Verified := fun _ => none

/-- The e-mails confirmed once a call has returned. -/
def Call.confirm (s : State) (v : Verified) : Call → Verified
  | .verifyCommanderEmail _ id => Function.update v id ((s.person id).bind (·.incidentCommanderEmail))
  | _ => v

def record (cfg : Config) (env : Env) (call : Call) (w : World) : Verified :=
  match (call.run cfg env w.state).1 with
  | .ok _ => call.confirm w.state w.verified
  | .error _ => w.verified

def after (cfg : Config) (env : Env) (call : Call) (w : World) : World :=
  ⟨exec (call.run cfg env) w.state, env.now, record cfg env call w⟩

/-- Services run one after another while the clock does not go back. -/
def system (cfg : Config) : Machine World (Env × Call) where
  init w := w.state.people = ⟨[]⟩ ∧ w.state.assignments = ⟨[]⟩
  step w a w' := w.clock ≤ a.1.now ∧ w' = after cfg a.1 a.2 w

section

variable {cfg : Config} {env : Env} {w : World}

theorem Call.spec {s : State} {v : Verified} (hs : ∀ {id p}, s.person id = some p → p.consistent = true) (call : Call)
    (hregular : Regular env s call) :
    wp (call.run cfg env) (fun _ t => Effect env.now s v t (call.confirm s v)) (fun _ t => t = s) s := by
  cases call with
  | createPerson => exact wp_bind.mpr wp_createPerson
  | updatePerson => exact wp_updatePerson
  | deletePerson => exact wp_deletePerson
  | setCommanderEligibility => exact wp_setCommanderEligibility
  | setCommanderEmail => exact wp_setCommanderEmail
  | verifyCommanderEmail => exact wp_verifyCommanderEmail hs
  | setRetentionPolicy => exact wp_setRetentionPolicy
  | offboardPerson => exact wp_offboardPerson hregular
  | anonymizePerson => exact wp_anonymizePerson
  | createPersonWithHome => exact wp_bind.mpr wp_createPersonWithHome
  | transferHome => exact wp_bind.mpr wp_transferHome
  | createTemporaryAssignment => exact wp_bind.mpr wp_createTemporaryAssignment
  | endTemporaryAssignment => exact wp_endTemporaryAssignment
  | wait => exact .free rfl rfl

/-- A call has one of the effects, or raises and leaves the rows. -/
theorem after_effect (hs : ∀ {id p}, w.state.person id = some p → p.consistent = true) {call : Call}
    (hregular : Regular env w.state call) :
    Effect env.now w.state w.verified (after cfg env call w).state (after cfg env call w).verified := by
  have hspec : wp (call.run cfg env) _ _ w.state := Call.spec (v := w.verified) hs call hregular
  simp only [after, record, exec]
  cases hrun : call.run cfg env w.state with
  | mk r t =>
    cases r with
    | ok _ => exact hspec.of_ok hrun
    | error e =>
      rw [hspec.of_error hrun]
      exact .free rfl rfl

end

end FireDash.Personnel
