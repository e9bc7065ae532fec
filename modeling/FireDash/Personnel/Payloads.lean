import FireDash.Personnel.Lifecycle

/-! The personnel payload of a station over every run of the personnel and assignment services. -/
namespace FireDash.Personnel

open Json (Text)
open Publications (Actor DepartmentId Time)
open Tx

/-! ### What a publication reads -/

def published (value : Text) : String := String.ofList (value.map Char.ofNat)

/-- The row of a person; an address is verified only where there is one. -/
def Person.row (id : PersonId) (p : Person) : Publications.Person where
  id := id
  department := p.department
  displayName := published p.displayName
  active := p.active
  incidentCommanderEligible := p.incidentCommanderEligible
  incidentCommanderEmail := p.incidentCommanderEmail.map published
  emailVerifiedAt := p.incidentCommanderEmail.bind fun _ => p.emailVerifiedAt
  verified_email := by cases p.incidentCommanderEmail <;> simp

def State.assignmentRow (s : State) (a : StationAssignment) : Option Publications.PersonnelStationAssignment :=
  (s.person a.person).map fun p => ⟨p.row a.person, a.station, a.validFrom, a.validUntil, a.endedAt⟩

def State.canonical (s : State) : Publications.Canonical where
  assignments := s.assignments.rows.filterMap s.assignmentRow

def personnelScope (station : Publications.Station) : Publications.Target :=
  ⟨some station.departmentId, some station, .stationPersonnel⟩

/-- An active person with an assignment to the station in force. -/
def State.serves (s : State) (station : StationId) (now : Time) (id : PersonId) : Prop :=
  ∃ p, s.person id = some p ∧ p.active = true ∧
    ∃ k a, s.assignments.find k = some a ∧ a.person = id ∧ a.station = station ∧ a.isCurrent now = true

/-- The payload lists everyone who serves at the station once and no one else, and the summary counts
as many people. -/
structure ListsOnce (s : State) (station : Publications.Station) (now : Time) (sourceRevision : ℕ)
    (people : List Publications.PersonRecord) (summary : Publications.Summary) : Prop where
  payload : Publications.personnelSourcePayload now s.canonical (personnelScope station) =
    .ok (.personnel station.id people)
  once : (people.map (·.id)).Nodup
  listed : ∀ id, id ∈ people.map (·.id) ↔ s.serves station.id now id
  summarized : Publications.buildPersonnel now s.canonical (personnelScope station) sourceRevision = .ok summary
  counted : summary.get? .personCount = some (.integer people.length)

/-! ### The invariant -/

/-- People are assigned within their department, and no two assignments of a person to one station are
ever in force together. -/
structure Placed (stations : StationId → DepartmentId) (s : State) : Prop where
  located : ∀ {k a}, s.assignments.find k = some a → ∃ p, s.person a.person = some p ∧ p.department = stations a.station
  apart : ∀ {k k' a a' u}, s.assignments.find k = some a → s.assignments.find k' = some a' → a.person = a'.person →
    a.station = a'.station → a.isCurrent u = true → a'.isCurrent u = true → k = k'

section

variable {stations : StationId → DepartmentId} {s : State} {station : Publications.Station} {now : Time}

/-- The assignments of a station that a publication sees. -/
def State.visible (s : State) (station : Publications.Station) (now : Time) :
    List Publications.PersonnelStationAssignment :=
  s.canonical.assignments.filter fun a => a.visible now (some station.departmentId) station

theorem visible_row_iff {a : StationAssignment} {row : Publications.PersonnelStationAssignment}
    (hrow : s.assignmentRow a = some row) :
    row.visible now (some station.departmentId) station = true ↔
      row.person.id = a.person ∧ a.station = station.id ∧ a.isCurrent now = true ∧
        ∃ p, s.person a.person = some p ∧ p.department = station.departmentId ∧ p.active = true := by
  obtain ⟨p, hp, rfl⟩ := Option.map_eq_some_iff.mp hrow
  rw [isCurrent_iff, hp]
  cases a.validUntil <;>
    simp [Publications.PersonnelStationAssignment.visible, Person.row] <;> tauto

theorem mem_visible {row : Publications.PersonnelStationAssignment} : row ∈ s.visible station now ↔
    ∃ k a, s.assignments.find k = some a ∧ s.assignmentRow a = some row ∧
      row.visible now (some station.departmentId) station = true := by
  simp only [State.visible, State.canonical, List.mem_filter, List.mem_filterMap]
  constructor
  · rintro ⟨⟨a, ha, hrow⟩, hv⟩
    obtain ⟨k, hk⟩ := List.mem_iff_getElem?.mp ha
    exact ⟨k, a, hk, hrow, hv⟩
  · rintro ⟨k, a, hk, hrow, hv⟩
    exact ⟨⟨a, List.mem_of_getElem? hk, hrow⟩, hv⟩

/-- Who is visible at a station serves there, when people are assigned within their department. -/
theorem Placed.mem_visible_iff (h : Placed stations s) (hstation : station.departmentId = stations station.id) (id : PersonId) :
    id ∈ (s.visible station now).map (·.person.id) ↔ s.serves station.id now id := by
  rw [List.mem_map]
  constructor
  · rintro ⟨row, hrow, rfl⟩
    obtain ⟨k, a, ha, hrow, hv⟩ := mem_visible.mp hrow
    obtain ⟨hid, hat, hnow, p, hp, -, hactive⟩ := (visible_row_iff hrow).mp hv
    rw [hid]
    exact ⟨p, hp, hactive, k, a, ha, rfl, hat, hnow⟩
  · rintro ⟨p, hp, hactive, k, a, ha, rfl, hat, hnow⟩
    have hrow : s.assignmentRow a = some ⟨p.row a.person, a.station, a.validFrom, a.validUntil, a.endedAt⟩ := by
      rw [State.assignmentRow, hp, Option.map_some]
    obtain ⟨q, hq, hdepartment⟩ := h.located ha
    rw [hp] at hq
    cases hq
    refine ⟨_, mem_visible.mpr ⟨k, a, ha, hrow, (visible_row_iff hrow).mpr ?_⟩, rfl⟩
    exact ⟨rfl, hat, hnow, p, hp, by rw [hdepartment, hat, hstation], hactive⟩

/-- No person is visible through two assignments. -/
theorem Placed.nodup_visible (h : Placed stations s) : ((s.visible station now).map (·.person.id)).Nodup := by
  rw [List.Nodup, List.pairwise_map, State.visible, List.pairwise_filter, State.canonical, List.pairwise_filterMap,
    List.pairwise_iff_getElem]
  intro i j hi hj hij row hrow row' hrow' hv hv' hsame
  obtain ⟨hid, hat, hnow, -⟩ := (visible_row_iff hrow).mp hv
  obtain ⟨hid', hat', hnow', -⟩ := (visible_row_iff hrow').mp hv'
  have hfind : s.assignments.find i = some s.assignments.rows[i] := List.getElem?_eq_getElem hi
  have hfind' : s.assignments.find j = some s.assignments.rows[j] := List.getElem?_eq_getElem hj
  have heq : i = j := h.apart hfind hfind' (hid.symm.trans (hsame.trans hid')) (hat.trans hat'.symm) hnow hnow'
  omega

/-- A station of a department is a personnel scope. -/
theorem personnelStation_scope (message : String) :
    Publications.personnelStation (personnelScope station) message = .ok station := if_pos rfl

theorem personnelSourcePayload_scope (s : State) (station : Publications.Station) (now : Time) : ∃ people,
    Publications.personnelSourcePayload now s.canonical (personnelScope station) = .ok (.personnel station.id people) ∧
      (people.map (·.id)).Perm ((s.visible station now).map (·.person.id)) := by
  refine ⟨_, by rw [Publications.personnelSourcePayload, personnelStation_scope, ok_bind]; rfl, ?_⟩
  rw [List.map_map]
  exact (List.perm_insertionSort _ _).map _

theorem buildPersonnel_scope (s : State) (station : Publications.Station) (now : Time) (sourceRevision : ℕ) : ∃ summary,
    Publications.buildPersonnel now s.canonical (personnelScope station) sourceRevision = .ok summary ∧
      summary.get? .personCount = some (.integer ((s.visible station now).map (·.person.id)).dedup.length) := by
  refine ⟨_, by rw [Publications.buildPersonnel, personnelStation_scope, ok_bind]; rfl, ?_⟩
  have hall : Publications.distinctPeople (s.visible station now) (fun _ => true) =
      ((s.visible station now).map (·.person.id)).dedup.length := by
    rw [Publications.distinctPeople, List.filter_true]
  rw [← hall]
  rfl

/-- Both builders work on the visible assignments. -/
theorem Placed.listsOnce (h : Placed stations s) (hstation : station.departmentId = stations station.id) (sourceRevision : ℕ) :
    ∃ people summary, ListsOnce s station now sourceRevision people summary := by
  obtain ⟨people, hpayload, hids⟩ := personnelSourcePayload_scope s station now
  obtain ⟨summary, hsummary, hcount⟩ := buildPersonnel_scope s station now sourceRevision
  refine ⟨people, summary, hpayload, hids.nodup_iff.mpr h.nodup_visible, ?_, hsummary, ?_⟩
  · exact fun id => hids.mem_iff.trans (h.mem_visible_iff hstation id)
  · have hlength : ((s.visible station now).map (·.person.id)).length = people.length := by
      rw [← hids.length_eq, List.length_map]
    rw [hcount, h.nodup_visible.dedup, hlength]

end

/-! ### The services -/

/-- The call assigns a person by the checks it makes. -/
def assignable (env : Env) (s : State) (actor : Actor) (id : PersonId) (station : Station) : Prop :=
  ∃ p, s.person id = some p ∧ env.operational p.department = true ∧ env.isDepartmentAdmin actor p.department = true ∧
    p.active = true ∧ station.active = true ∧ p.department = station.department

/-- No assignment of the person to the station is in force at one of the instants. -/
def State.absent (s : State) (id : PersonId) (station : StationId) (during : Time → Prop) : Prop :=
  ∀ k a u, s.assignments.find k = some a → a.person = id → a.station = station → during u → a.isCurrent u = false

/-- A call gives no one an assignment to a station while another one to it is in force. -/
def Apart (env : Env) (s : State) : Call → Prop
  | .transferHome id station actor effectiveAt => assignable env s actor id station →
      (∃ e ∈ currentHome s id env.now, e.2.station ≠ station.id) →
        s.absent id station.id fun u => effectiveAt.getD env.now ≤ u
  | .createTemporaryAssignment id station actor validUntil _ => assignable env s actor id station →
      s.absent id station.id fun u => env.now ≤ u ∧ ∃ e ∈ validUntil, u < e
  | _ => True

/-- The stations a call names are the rows of the database, whose department never changes. -/
def Call.OnFile (stations : StationId → DepartmentId) : Call → Prop
  | .createPerson _ _ station _ _ _ _ _ => station.department = stations station.id
  | .createPersonWithHome _ station _ _ => station.department = stations station.id
  | .transferHome _ station _ _ => station.department = stations station.id
  | .createTemporaryAssignment _ station _ _ _ => station.department = stations station.id
  | _ => True

/-- What a service does to the people who are assigned and to their assignments: an old assignment is
in force at most as long as before, and a new one is in force only while no other is. -/
structure Restaffs (stations : StationId → DepartmentId) (s t : State) : Prop where
  people : ∀ {k a p}, s.assignments.find k = some a → s.person a.person = some p →
    ∃ p', t.person a.person = some p' ∧ p'.department = p.department
  rows : ∀ {k a}, t.assignments.find k = some a →
    (∃ b, s.assignments.find k = some b ∧ a.person = b.person ∧ a.station = b.station ∧
      ∀ u, a.isCurrent u = true → b.isCurrent u = true) ∨
    (k = s.assignments.nextId ∧ (∃ p, t.person a.person = some p ∧ p.department = stations a.station) ∧
      s.absent a.person a.station fun u => a.isCurrent u = true)

section

variable {stations : StationId → DepartmentId} {cfg : Config} {env : Env} {s t : State} {actor : Actor} {id : PersonId}
  {p q : Person}

theorem Placed.restaff (h : Placed stations s) (ht : Restaffs stations s t) : Placed stations t where
  located := by
    intro k a ha
    rcases ht.rows ha with ⟨b, hb, hperson, hstation, -⟩ | ⟨-, hp, -⟩
    · obtain ⟨p, hp, hdepartment⟩ := h.located hb
      obtain ⟨p', hp', hsame⟩ := ht.people hb hp
      exact ⟨p', hperson ▸ hp', by rw [hsame, hdepartment, hstation]⟩
    · exact hp
  apart := by
    intro k k' a a' u ha ha' hperson hstation hnow hnow'
    rcases ht.rows ha with ⟨b, hb, hbperson, hbstation, hbnow⟩ | ⟨hk, -, hnew⟩ <;>
      rcases ht.rows ha' with ⟨b', hb', hbperson', hbstation', hbnow'⟩ | ⟨hk', -, hnew'⟩
    · have hsame := hbperson.symm.trans (hperson.trans hbperson')
      exact h.apart hb hb' hsame (hbstation.symm.trans (hstation.trans hbstation')) (hbnow u hnow) (hbnow' u hnow')
    · have hover := hnew' k b u hb (hbperson.symm.trans hperson) (hbstation.symm.trans hstation) hnow'
      rw [hbnow u hnow] at hover
      cases hover
    · have hover := hnew k' b' u hb' (hbperson'.symm.trans hperson.symm) (hbstation'.symm.trans hstation.symm) hnow
      rw [hbnow' u hnow'] at hover
      cases hover
    · exact hk.trans hk'.symm

theorem Restaffs.refl (hp : t.people = s.people) (ha : t.assignments = s.assignments) : Restaffs stations s t where
  people := fun {_ _ p} _ hfind => ⟨p, (person_congr hp _).trans hfind, rfl⟩
  rows := fun {_ a} hfind => .inl ⟨a, ha ▸ hfind, rfl, rfl, fun _ h => h⟩

/-- The rewrite of a person within the department, while assignments at most end. -/
theorem Restaffs.saved (hfind : s.person id = some p) (hp : t.people = s.people.modify id fun _ => some q)
    (hdepartment : q.department = p.department) {f : StationAssignment → StationAssignment}
    (ha : t.assignments = ⟨s.assignments.rows.map f⟩) (hf : ∀ a, (f a).person = a.person ∧ (f a).station = a.station ∧
      ∀ u, (f a).isCurrent u = true → a.isCurrent u = true) : Restaffs stations s t where
  people := by
    intro k a r _ hr
    rw [person_modify hp hfind]
    split
    · rename_i hid
      rw [hid, hfind] at hr
      cases hr
      exact ⟨q, rfl, hdepartment⟩
    · exact ⟨r, hr, rfl⟩
  rows := by
    intro k a hk
    rw [ha, Table.find_map] at hk
    obtain ⟨b, hb, rfl⟩ := Option.map_eq_some_iff.mp hk
    exact .inl ⟨b, hb, hf b⟩

theorem Restaffs.edited (hfind : s.person id = some p) (hp : t.people = s.people.modify id fun _ => some q)
    (hdepartment : q.department = p.department) (ha : t.assignments = s.assignments) : Restaffs stations s t := by
  refine .saved hfind hp hdepartment ?_ (f := fun a => a) fun a => ⟨rfl, rfl, fun _ h => h⟩
  rw [ha, List.map_id']

/-- A new assignment beside old ones that at most end. -/
theorem Restaffs.assigned {base : Table StationAssignment} {a : StationAssignment}
    (hpeople : ∀ {k b r}, s.assignments.find k = some b → s.person b.person = some r → t.person b.person = some r)
    (hnext : base.nextId = s.assignments.nextId)
    (hbase : ∀ {k b}, base.find k = some b → ∃ c, s.assignments.find k = some c ∧ b.person = c.person ∧
      b.station = c.station ∧ ∀ u, b.isCurrent u = true → c.isCurrent u = true)
    (ha : t.assignments = base.insert a) (hp : ∃ p, t.person a.person = some p ∧ p.department = stations a.station)
    (habsent : s.absent a.person a.station fun u => a.isCurrent u = true) : Restaffs stations s t where
  people := fun {_ _ r} hb hr => ⟨r, hpeople hb hr, rfl⟩
  rows := by
    intro k b hk
    rw [ha] at hk
    rcases Table.find_insert_cases hk with ⟨hid, rfl⟩ | hold
    · exact .inr ⟨hid.trans hnext, hp, habsent⟩
    · exact .inl (hbase hold)

/-- A hired person had no assignment before. -/
theorem Placed.hire (h : Placed stations s) {a : StationAssignment} (hperson : a.person = s.people.nextId)
    (hstation : p.department = stations a.station) (hp : t.people = s.people.insert (some p))
    (ha : t.assignments = s.assignments.insert a) : Restaffs stations s t := by
  have hold : ∀ {k b}, s.assignments.find k = some b → b.person ≠ s.people.nextId := by
    intro k b hb hid
    obtain ⟨r, hr, -⟩ := h.located hb
    rw [hid, person_nextId] at hr
    cases hr
  refine .assigned ?_ rfl (fun {_ b} hb => ⟨b, hb, rfl, rfl, fun _ hu => hu⟩) ha ⟨p, ?_, hstation⟩ ?_
  · intro k b r hb hr
    rw [person_insert hp, if_neg (hold hb), hr]
  · rw [person_insert hp, if_pos hperson]
  · intro k b u hb hid
    exact absurd (hid.trans hperson) (hold hb)

theorem restaffs_updatePerson {personnelNumber : Option Text} {firstName lastName : Text} :
    wp (updatePerson cfg env actor id personnelNumber firstName lastName) (fun _ t => Restaffs stations s t)
      (fun _ t => t = s) s := by
  simp only [updatePerson, lockPerson, requireDepartmentAdmin, wp_atomic, wp_bind, wp_get, wp_require, wp_ensure, implies_true,
    and_true]
  intro p hp _ _ _
  rw [wp_whenever]
  exact ⟨fun _ => wp_saveEdit fun _ _ => .edited hp rfl rfl rfl, fun _ => .refl rfl rfl⟩

theorem restaffs_setCommanderEligibility {eligible : Bool} {station : Option Station} :
    wp (setCommanderEligibility cfg env actor id eligible station) (fun _ t => Restaffs stations s t)
      (fun _ t => t = s) s := by
  simp only [setCommanderEligibility, lockPerson, wp_atomic, wp_bind, wp_get, wp_require, wp_ensure, implies_true, and_true]
  intro p hp _ _
  rw [wp_whenever]
  exact ⟨fun _ => wp_saveEdit fun _ _ => .edited hp rfl rfl rfl, fun _ => .refl rfl rfl⟩

theorem restaffs_setCommanderEmail {email : Text} :
    wp (setCommanderEmail cfg env actor id email) (fun _ t => Restaffs stations s t) (fun _ t => t = s) s := by
  simp only [setCommanderEmail, lockPerson, requireDepartmentAdmin, wp_atomic, wp_bind, wp_get, wp_require, wp_ensure,
    implies_true, and_true]
  intro p hp _ _
  rw [wp_whenever]
  exact ⟨fun _ => wp_saveEdit fun _ _ => .edited hp rfl rfl rfl, fun _ => .refl rfl rfl⟩

theorem restaffs_verifyCommanderEmail :
    wp (verifyCommanderEmail cfg env actor id) (fun _ t => Restaffs stations s t) (fun _ t => t = s) s := by
  simp only [verifyCommanderEmail, lockPerson, requireDepartmentAdmin, wp_atomic, wp_bind, wp_get, wp_require,
    wp_ensure, implies_true, and_true]
  intro p hp _ _
  rw [wp_whenever]
  exact ⟨fun _ => wp_saveEdit fun _ _ => .edited hp rfl rfl rfl, fun _ => .refl rfl rfl⟩

theorem restaffs_anonymizePerson :
    wp (anonymizePerson cfg env actor id) (fun _ t => Restaffs stations s t) (fun _ t => t = s) s := by
  simp only [anonymizePerson, lockPerson, requireDepartmentAdmin, wp_atomic, wp_bind, wp_get, wp_require, wp_ensure,
    implies_true, and_true]
  intro p hp _ _
  exact wp_bind.mp (wp_saveEdit fun _ _ => .edited hp rfl rfl rfl)

/-- Only a person without assignments is removed. -/
theorem restaffs_deletePerson :
    wp (deletePerson cfg env actor id) (fun _ t => Restaffs stations s t) (fun _ t => t = s) s := by
  simp only [deletePerson, lockPerson, requireDepartmentAdmin, wp_atomic, wp_bind, wp_get, wp_require, wp_ensure,
    wp_modify, implies_true, and_true]
  intro p _ _ hfree
  refine wp_markStations (fun db => ⟨?_, fun {_ a} ha => .inl ⟨a, ha, rfl, rfl, fun _ h => h⟩⟩) fun _ _ => trivial
  intro k a r ha hr
  have hne := of_decide_eq_true (List.all_eq_true.mp hfree.1 a (List.mem_of_getElem? ha))
  refine ⟨r, ?_, rfl⟩
  unfold State.person at hr ⊢
  rw [Table.find_modify, if_neg (Ne.symm hne)]
  exact hr

theorem restaffs_setRetentionPolicy {department : DepartmentId} {period : ℤ} :
    wp (setRetentionPolicy env actor department period) (fun _ t => Restaffs stations s t) (fun _ t => t = s) s := by
  simp only [setRetentionPolicy, wp_atomic, wp_bind, wp_ensure, wp_get]
  refine ⟨fun _ => ?_, fun _ => trivial⟩
  split
  · exact .refl rfl rfl
  · rw [wp_whenever]
    exact ⟨fun _ => .refl rfl rfl, fun _ => .refl rfl rfl⟩

theorem restaffs_offboardPerson :
    wp (offboardPerson cfg env actor id) (fun _ t => Restaffs stations s t) (fun _ t => t = s) s := by
  simp only [offboardPerson, lockPerson, requireDepartmentAdmin, endOpenAssignments, savePerson, wp_atomic, wp_bind,
    wp_get, wp_require, wp_ensure, wp_modify, implies_true, and_true]
  intro p hp _ policy _ _ _
  refine wp_markStations (fun db => .saved hp rfl rfl rfl fun a => ?_) fun _ _ => trivial
  split
  · refine ⟨rfl, rfl, fun u hu => ?_⟩
    rw [isCurrent_eq_false_of_ended (Option.some_ne_none _)] at hu
    cases hu
  · exact ⟨rfl, rfl, fun _ h => h⟩

theorem restaffs_createPerson (h : Placed stations s) {department : Department} {station : Station} {number : Option Text}
    {firstName lastName email : Text} {eligible : Bool} (hstation : station.department = stations station.id) :
    wp (createPerson cfg env actor department station number firstName lastName eligible email)
      (fun _ t => Restaffs stations s t) (fun _ t => t = s) s := by
  simp only [createPerson, requireDepartmentAdmin, insertPerson, wp_atomic, wp_bind, wp_get, wp_ensure, wp_modify,
    wp_pure, implies_true, and_true]
  intro _ hsame _ _ _
  refine wp_bind.mp (wp_house rfl fun _ _ => wp_markDirty (fun db => ?_) fun _ _ => trivial)
  exact h.hire rfl (hsame.1.trans hstation) rfl rfl

theorem restaffs_createPersonWithHome (h : Placed stations s) {department : Department} {station : Station}
    {effectiveAt : Option Time} (hstation : station.department = stations station.id) :
    wp (createPersonWithHome env department station actor effectiveAt) (fun _ t => Restaffs stations s t)
      (fun _ t => t = s) s := by
  simp only [createPersonWithHome, insertPerson, wp_atomic, wp_bind, wp_get, wp_ensure, wp_modify, wp_pure, implies_true,
    and_true]
  intro hsame _ _ _
  exact wp_bind.mp (wp_house rfl fun _ _ => h.hire rfl (hsame.trans hstation) rfl rfl)

theorem restaffs_transferHome {station : Station} {effectiveAt : Option Time}
    (hstation : station.department = stations station.id) (hapart : Apart env s (.transferHome id station actor effectiveAt)) :
    wp (transferHome cfg env id station actor effectiveAt) (fun _ t => Restaffs stations s t) (fun _ t => t = s) s := by
  simp only [transferHome, lockPerson, requireOperationalAdmin, validatePersonStation, closeAssignment, wp_atomic,
    wp_bind, wp_get, wp_require, wp_ensure, wp_modify, implies_true, and_true]
  intro p hp hadmin _ hvalid
  rintro ⟨k, old⟩ hcurrent
  obtain ⟨hold, -, -, -⟩ := currentHome_eq_some hcurrent
  intro hmoves _
  simp only [insertAssignment, ensureCurrentHome, wp_bind, wp_get, wp_ensure, wp_modify, wp_pure, implies_true, and_true]
  intro _ _ previous _
  refine wp_markDirty (fun db => wp_markDirty (fun db' => ?_) fun _ _ => trivial) fun _ _ => trivial
  have habsent := hapart ⟨p, hp, hadmin.1, hadmin.2, hvalid⟩ ⟨(k, old), hcurrent, hmoves⟩
  refine .assigned (fun _ hr => hr) (Table.nextId_modify _ _ _) ?_ rfl ⟨p, hp, hvalid.2.2.trans hstation⟩ ?_
  · intro j b hb
    rcases Table.find_modify_cases hold hb with ⟨rfl, rfl⟩ | ⟨-, hb⟩
    · refine ⟨old, hold, rfl, rfl, fun u hu => ?_⟩
      rw [isCurrent_eq_false_of_ended (Option.some_ne_none _)] at hu
      cases hu
    · exact ⟨b, hb, rfl, rfl, fun _ hu => hu⟩
  · intro j b u hb hperson hat hnow
    exact habsent j b u hb hperson hat (isCurrent_iff.mp hnow).1

theorem restaffs_createTemporaryAssignment {station : Station} {validUntil : Option Time} {reason : Text}
    (hstation : station.department = stations station.id)
    (hapart : Apart env s (.createTemporaryAssignment id station actor validUntil reason)) :
    wp (createTemporaryAssignment cfg env id station actor validUntil reason) (fun _ t => Restaffs stations s t)
      (fun _ t => t = s) s := by
  simp only [createTemporaryAssignment, lockPerson, requireOperationalAdmin, validatePersonStation, insertAssignment,
    wp_atomic, wp_bind, wp_get, wp_require, wp_ensure, wp_modify, wp_pure, implies_true, and_true]
  intro p hp hadmin _ hvalid expiry hexpiry _
  refine wp_markDirty (fun db => ?_) fun _ _ => trivial
  have habsent := hapart ⟨p, hp, hadmin.1, hadmin.2, hvalid⟩
  refine .assigned (fun _ hr => hr) rfl (fun {_ b} hb => ⟨b, hb, rfl, rfl, fun _ hu => hu⟩) rfl
    ⟨p, hp, hvalid.2.2.trans hstation⟩ ?_
  intro j b u hb hperson hat hnow
  obtain ⟨hfrom, -, huntil⟩ := isCurrent_iff.mp hnow
  exact habsent j b u hb hperson hat ⟨hfrom, expiry, (Option.filter_eq_some_iff.mp hexpiry).1, huntil expiry rfl⟩

theorem restaffs_endTemporaryAssignment {k : AssignmentId} {by' : Option Actor} :
    wp (endTemporaryAssignment cfg env k by') (fun _ t => Restaffs stations s t) (fun _ t => t = s) s := by
  simp only [endTemporaryAssignment, wp_atomic, wp_bind, wp_get, wp_require, wp_ensure, implies_true, and_true]
  intro a ha p _ _
  rw [wp_whenever]
  refine ⟨fun _ => ?_, fun _ => .refl rfl rfl⟩
  rw [wp_bind]
  refine wp_mono wp_requireAdmins ?_ fun _ _ h => h
  rintro _ _ rfl
  simp only [closeAssignment, wp_bind, wp_ensure, wp_modify, wp_require]
  refine ⟨fun _ => ⟨fun station _ => wp_markDirty (fun db => ⟨?_, ?_⟩) fun _ _ => trivial, fun _ => trivial⟩,
    fun _ => trivial⟩
  · exact fun {_ _ r} _ hr => ⟨r, hr, rfl⟩
  · intro j b hb
    rcases Table.find_modify_cases ha hb with ⟨rfl, rfl⟩ | ⟨-, hb⟩
    · refine .inl ⟨a, ha, rfl, rfl, fun u hu => ?_⟩
      rw [isCurrent_eq_false_of_ended (Option.some_ne_none _)] at hu
      cases hu
    · exact .inl ⟨b, hb, rfl, rfl, fun _ hu => hu⟩

theorem Call.restaffs (h : Placed stations s) {call : Call} (hfile : call.OnFile stations) (hapart : Apart env s call) :
    wp (call.run cfg env) (fun _ t => Restaffs stations s t) (fun _ t => t = s) s := by
  cases call with
  | createPerson => exact wp_bind.mpr (restaffs_createPerson h hfile)
  | updatePerson => exact restaffs_updatePerson
  | deletePerson => exact restaffs_deletePerson
  | setCommanderEligibility => exact restaffs_setCommanderEligibility
  | setCommanderEmail => exact restaffs_setCommanderEmail
  | verifyCommanderEmail => exact restaffs_verifyCommanderEmail
  | setRetentionPolicy => exact restaffs_setRetentionPolicy
  | offboardPerson => exact restaffs_offboardPerson
  | anonymizePerson => exact restaffs_anonymizePerson
  | createPersonWithHome => exact wp_bind.mpr (restaffs_createPersonWithHome h hfile)
  | transferHome => exact wp_bind.mpr (restaffs_transferHome hfile hapart)
  | createTemporaryAssignment => exact wp_bind.mpr (restaffs_createTemporaryAssignment hfile hapart)
  | endTemporaryAssignment => exact restaffs_endTemporaryAssignment
  | wait => exact .refl rfl rfl

end

/-! ### Runs -/

/-- The runs of the services over stations whose departments never change. -/
def staffing (stations : StationId → DepartmentId) (cfg : Config) : Machine World (Env × Call) where
  init := (system cfg).init
  step w a w' := a.2.OnFile stations ∧ (system cfg).step w a w'

section

variable {stations : StationId → DepartmentId} {cfg : Config} {w w' w₀ : World}

theorem placed_of_init (h : (staffing stations cfg).init w) : Placed stations w.state := by
  have hempty : ∀ k, w.state.assignments.find k = none := fun k => by simp [h.2, Table.find]
  constructor <;> simp [hempty]

theorem Placed.step (h : Placed stations w.state) {a : Env × Call} (hs : (staffing stations cfg).step w a w')
    (hapart : Apart a.1 w.state a.2) : Placed stations w'.state := by
  obtain ⟨hfile, -, rfl⟩ := hs
  refine exec_of_wp (wp_mono (Call.restaffs h hfile hapart) (fun _ _ => h.restaff) ?_)
  rintro _ _ rfl
  exact h

/-- In every run whose calls keep the assignments of a person to a station apart, the payload of every
station lists everyone who serves there once, whenever it is built. -/
theorem payload_lists_once {trace : List (World × (Env × Call) × World)} (h : (staffing stations cfg).Run w₀ trace w)
    (hapart : ∀ e ∈ trace, Apart e.2.1.1 e.1.state e.2.1.2) (station : StationId) (now : Time) (sourceRevision : ℕ) :
    ∃ people summary, ListsOnce w.state ⟨station, stations station⟩ now sourceRevision people summary := by
  suffices hplaced : Placed stations w.state from hplaced.listsOnce rfl sourceRevision
  induction h with
  | start hinit => exact placed_of_init hinit
  | @next t t' trace a h hs ih =>
    have hbefore := ih fun e he => hapart e (List.mem_append_left _ he)
    exact hbefore.step hs (hapart (t, a, t') (by simp))

end

/-! ### A person lent to the home station -/

theorem run_staffing {w : World} {calls : List (Env × Call)} {stations : StationId → DepartmentId}
    (hinit : (staffing stations sampleConfig).init w)
    (hcalls : ∀ e ∈ Machine.steps next w calls, e.2.1.2.OnFile stations ∧ e.1.clock ≤ e.2.1.1.now) :
    (staffing stations sampleConfig).Run w (Machine.steps next w calls) (calls.foldl next w) := by
  have hstart : (staffing stations sampleConfig).Run w [] w := .start hinit
  exact hstart.steps fun e he => ⟨(hcalls e he).1, (hcalls e he).2, (Machine.of_mem_steps he).2⟩

def lentAway : List (Env × Call) := [hire, lend]

/-- A person of station 0 is lent to station 1. -/
theorem lent_away_listed_once : ∃ people summary,
    ListsOnce (lentAway.foldl next {}).state ⟨1, 0⟩ 3 7 people summary := by
  have hrun : (staffing (fun _ => 0) sampleConfig).Run {} (Machine.steps next {} lentAway) (lentAway.foldl next {}) := by
    refine run_staffing ⟨rfl, rfl⟩ fun e he => ?_
    simp only [lentAway, Machine.steps, List.mem_cons, List.not_mem_nil, or_false] at he
    rcases he with rfl | rfl
    · exact ⟨rfl, by decide⟩
    · exact ⟨rfl, by decide +kernel⟩
  refine payload_lists_once hrun (fun e he => ?_) 1 3 7
  simp only [lentAway, Machine.steps, List.mem_cons, List.not_mem_nil, or_false] at he
  rcases he with rfl | rfl
  · trivial
  · intro _ k a u ha _ hstation
    have hhome : ((next {} hire).state.assignments.rows.all fun a => a.station = 0) = true := by decide +kernel
    have hzero := of_decide_eq_true (List.all_eq_true.mp hhome a (List.mem_of_getElem? ha))
    rw [hzero] at hstation
    cases hstation

def lendHome : Env × Call := (sampleEnv 3, .createTemporaryAssignment 0 ⟨0, 0, true⟩ 1 (some 100) [])

def lentHome : List (Env × Call) := [hire, lendHome]

/-- The people and the count a station publishes. -/
def publishes (s : State) (station : Publications.Station) (now : Time) :
    Option (List ℕ) × Option (Option Publications.SummaryValue) :=
  (match Publications.personnelSourcePayload now s.canonical (personnelScope station) with
    | .ok (.personnel _ people) => some (people.map (·.id))
    | _ => none,
   (Publications.buildPersonnel now s.canonical (personnelScope station) 7).toOption.map (·.get? .personCount))

/-- A person of station 0 is lent to station 0: the payload lists one person twice, the summary counts one. -/
theorem lent_home_listed_twice :
    (staffing (fun _ => 0) sampleConfig).Run {} (Machine.steps next {} lentHome) (lentHome.foldl next {}) ∧
    publishes (lentHome.foldl next {}).state ⟨0, 0⟩ 3 = (some [0, 0], some (some (.integer 1))) ∧
    ¬∃ people summary, ListsOnce (lentHome.foldl next {}).state ⟨0, 0⟩ 3 7 people summary := by
  have hpublishes : publishes (lentHome.foldl next {}).state ⟨0, 0⟩ 3 = (some [0, 0], some (some (.integer 1))) := by
    decide +kernel
  refine ⟨?_, hpublishes, ?_⟩
  · refine run_staffing ⟨rfl, rfl⟩ fun e he => ?_
    simp only [lentHome, Machine.steps, List.mem_cons, List.not_mem_nil, or_false] at he
    rcases he with rfl | rfl
    · exact ⟨rfl, by decide⟩
    · exact ⟨rfl, by decide +kernel⟩
  · rintro ⟨people, summary, hlists⟩
    have hids : people.map (·.id) = [0, 0] := by
      have hfirst := congrArg Prod.fst hpublishes
      simp only [publishes, hlists.payload] at hfirst
      exact Option.some.inj hfirst
    have honce := hlists.once
    rw [hids] at honce
    exact absurd honce (by decide)

end FireDash.Personnel
