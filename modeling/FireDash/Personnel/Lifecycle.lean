import FireDash.Personnel.Effects
import FireDash.Publications.System

/-! The lifecycle of a person over every run of the personnel and assignment services. -/
namespace FireDash.Personnel

open Json (Text)
open Publications (Actor DepartmentId Time)

/-- An assignment in force at the clock. -/
def Current (w : World) (k : AssignmentId) (a : StationAssignment) : Prop :=
  w.state.assignments.find k = some a ∧ a.isCurrent w.clock = true

/-- What holds of every person in every state. -/
structure Holds (w : World) : Prop where
  housed : ∀ id p, w.state.person id = some p → p.lifecycleStatus = .active →
    ∃! k, ∃ a, Current w k a ∧ a.person = id ∧ a.assignmentType = .home
  released : ∀ id p, w.state.person id = some p → p.lifecycleStatus ≠ .active →
    (∀ k a, Current w k a → a.person ≠ id) ∧ p.incidentCommanderEmail = none
  verified : ∀ id p, w.state.person id = some p → p.emailVerifiedAt ≠ none →
    p.incidentCommanderEligible = true ∧ p.incidentCommanderEmail = w.verified id

/-- What a step keeps of every person. -/
structure Keeps (w w' : World) : Prop where
  status : ∀ id p p', w.state.person id = some p → w'.state.person id = some p' →
    p'.lifecycleStatus = p.lifecycleStatus ∨ (p.lifecycleStatus = .active ∧ p'.lifecycleStatus = .departed) ∨
      (p.lifecycleStatus = .departed ∧ p'.lifecycleStatus = .anonymized)
  retention : ∀ id p p', w.state.person id = some p → w'.state.person id = some p' → p.lifecycleStatus ≠ .active →
    p'.retentionUntil = p.retentionUntil

/-! ### The invariant -/

structure Person.Sound (v : Verified) (id : PersonId) (p : Person) : Prop where
  consistent : p.consistent = true
  left : p.lifecycleStatus ≠ .active → p.incidentCommanderEligible = false ∧ p.incidentCommanderEmail = none
  verified : p.emailVerifiedAt ≠ none → p.incidentCommanderEligible = true ∧ p.incidentCommanderEmail = v id

/-- A home lasts until it is ended, a temporary assignment has an expiry, and one of a person who
left is over. -/
structure StationAssignment.Sound (s : State) (now : Time) (a : StationAssignment) : Prop where
  home : a.assignmentType = .home → a.endedAt = none → a.validUntil = none
  temporary : a.assignmentType = .temporary → a.validUntil ≠ none
  begun : a.validFrom ≤ now
  known : ∃ p, s.person a.person = some p ∧ (p.lifecycleStatus ≠ .active → ∀ u, now ≤ u → a.isCurrent u = false)

structure Sound (s : State) (now : Time) (v : Verified) : Prop where
  person : ∀ {id p}, s.person id = some p → p.Sound v id
  assignment : ∀ {k a}, s.assignments.find k = some a → a.Sound s now
  unique : ∀ {k k' a a'}, s.assignments.find k = some a → s.assignments.find k' = some a' → a.isOpenHome = true →
    a'.isOpenHome = true → a.person = a'.person → k = k'
  housed : ∀ {id p}, s.person id = some p → p.lifecycleStatus = .active →
    ∃ k a, s.assignments.find k = some a ∧ a.person = id ∧ a.isOpenHome = true

section

variable {now now' : Time} {s t : State} {v v' : Verified} {id : PersonId} {p q : Person} {a : StationAssignment}

theorem isOpenHome_iff : a.isOpenHome = true ↔ a.assignmentType = .home ∧ a.validUntil = none ∧ a.endedAt = none := by
  simp [StationAssignment.isOpenHome, and_assoc]

theorem isCurrent_iff {u : Time} : a.isCurrent u = true ↔
    a.validFrom ≤ u ∧ a.endedAt = none ∧ ∀ e, a.validUntil = some e → u < e := by
  cases h : a.validUntil <;> simp [StationAssignment.isCurrent, h, and_assoc]

theorem isCurrent_eq_false_of_ended {u : Time} (h : a.endedAt ≠ none) : a.isCurrent u = false := by
  rw [Bool.eq_false_iff]
  intro hc
  exact h (isCurrent_iff.mp hc).2.1

theorem active_iff (h : p.consistent = true) : p.active = true ↔ p.lifecycleStatus = .active := by
  cases hs : p.lifecycleStatus <;> simp_all [Person.consistent]

theorem person_modify (hp : t.people = s.people.modify id fun _ => some q) (hfind : s.person id = some p) {j : PersonId} :
    t.person j = if j = id then some q else s.person j := by
  unfold State.person
  rw [hp, Table.find_modify]
  by_cases hj : j = id
  · subst hj
    rw [if_pos rfl, if_pos rfl, find_of_person hfind]
    rfl
  · rw [if_neg (Ne.symm hj), if_neg hj]

/-- The home a service just inserted is the one it then found in force. -/
theorem Housed.begun {base : Table StationAssignment} (h : Housed now s t id a) (ha : t.assignments = base.insert a)
    (hhome : ∀ j b, base.find j = some b → b.assignmentType = .home → b.endedAt = none → b.validUntil = none)
    (hfree : ∀ j b, base.find j = some b → b.isOpenHome = true → b.person ≠ id) : a.validFrom ≤ now := by
  obtain ⟨⟨j, b⟩, hb⟩ := Option.isSome_iff_exists.mp h.current
  obtain ⟨hfind, hperson, htype, hcurrent⟩ := currentHome_eq_some hb
  obtain ⟨hfrom, hended, -⟩ := isCurrent_iff.mp hcurrent
  rw [ha] at hfind
  rcases Table.find_insert_cases hfind with ⟨-, rfl⟩ | hold
  · exact hfrom
  · have hopen := isOpenHome_iff.mpr ⟨htype, hhome j b hold htype hended, hended⟩
    exact absurd hperson (hfree j b hold hopen)

/-- An assignment stays sound as long as its person stays, and leaves only once it is over. -/
theorem StationAssignment.Sound.mono (h : a.Sound s now) (hle : now ≤ now')
    (hp : ∀ p, s.person a.person = some p → ∃ p', t.person a.person = some p' ∧
      (p'.lifecycleStatus ≠ .active → p.lifecycleStatus ≠ .active ∨ ∀ u, now' ≤ u → a.isCurrent u = false)) :
    a.Sound t now' where
  home := h.home
  temporary := h.temporary
  begun := h.begun.trans hle
  known := by
    obtain ⟨p, hfind, hleft⟩ := h.known
    obtain ⟨p', hfind', hkeep⟩ := hp p hfind
    refine ⟨p', hfind', fun hp' u hu => ?_⟩
    rcases hkeep hp' with hp | hover
    · exact hleft hp u (hle.trans hu)
    · exact hover u hu

/-- The rewrite of an assignment as one that is over. -/
theorem StationAssignment.Sound.close {closed : StationAssignment} (h : a.Sound s now) (hperson : closed.person = a.person)
    (htype : closed.assignmentType = a.assignmentType) (hfrom : closed.validFrom = a.validFrom)
    (hended : closed.endedAt ≠ none) (huntil : a.validUntil ≠ none → closed.validUntil ≠ none) : closed.Sound s now where
  home _ hno := absurd hno hended
  temporary ht := huntil (h.temporary (htype ▸ ht))
  begun := hfrom.trans_le h.begun
  known := by
    obtain ⟨p, hfind, -⟩ := h.known
    exact ⟨p, hperson ▸ hfind, fun _ _ _ => isCurrent_eq_false_of_ended hended⟩

theorem not_isOpenHome_of_ended (h : a.endedAt ≠ none) : a.isOpenHome ≠ true := fun hopen => h (isOpenHome_iff.mp hopen).2.2

/-! ### Steps -/

theorem Sound.mono (h : Sound s now v) (hle : now ≤ now') : Sound s now' v where
  person := h.person
  assignment ha := (h.assignment ha).mono hle fun p hp => ⟨p, hp, .inl⟩
  unique := h.unique
  housed := h.housed

theorem person_congr (hp : t.people = s.people) (j : PersonId) : t.person j = s.person j := by
  rw [State.person, State.person, hp]

theorem Sound.congr (h : Sound s now v) (hp : t.people = s.people) (ha : t.assignments = s.assignments) : Sound t now v := by
  have hperson := person_congr hp
  refine ⟨?_, ?_, ?_, ?_⟩ <;> simp only [hperson, ha]
  · exact h.person
  · exact fun hb => (h.assignment hb).mono le_rfl fun p hp => ⟨p, (hperson _).trans hp, .inl⟩
  · exact h.unique
  · exact h.housed

/-- A person is saved with the lifecycle it has, or anonymized. -/
theorem Sound.save (h : Sound s now v) (hp : t.people = s.people.modify id fun _ => some q)
    (ha : t.assignments = s.assignments) (hfind : s.person id = some p) (hq : q.Sound v' id)
    (hv : ∀ j, j ≠ id → v' j = v j) (hstatus : q.lifecycleStatus = .active ↔ p.lifecycleStatus = .active) :
    Sound t now v' := by
  have hperson : ∀ {j r}, t.person j = some r →
      r.Sound v' j ∧ ∃ r', s.person j = some r' ∧ (r.lifecycleStatus = .active ↔ r'.lifecycleStatus = .active) := by
    intro j r hr
    rw [person_modify hp hfind] at hr
    by_cases hj : j = id
    · subst hj
      rw [if_pos rfl] at hr
      cases hr
      exact ⟨hq, p, hfind, hstatus⟩
    · rw [if_neg hj] at hr
      have hsound := h.person hr
      refine ⟨⟨hsound.consistent, hsound.left, ?_⟩, r, hr, Iff.rfl⟩
      rw [hv j hj]
      exact hsound.verified
  refine ⟨fun hr => (hperson hr).1, ?_, ?_, ?_⟩
  · intro k b hb
    rw [ha] at hb
    refine (h.assignment hb).mono le_rfl fun r hr => ?_
    rw [person_modify hp hfind]
    by_cases hj : b.person = id
    · rw [hj, hfind] at hr
      cases hr
      rw [if_pos hj]
      exact ⟨q, rfl, fun hleft => .inl fun hactive => hleft (hstatus.mpr hactive)⟩
    · rw [if_neg hj]
      exact ⟨r, hr, .inl⟩
  · rw [ha]
    exact h.unique
  · intro j r hr hactive
    obtain ⟨-, r', hr', hiff⟩ := hperson hr
    rw [ha]
    exact h.housed hr' (hiff.mp hactive)

theorem person_insert (hp : t.people = s.people.insert (some p)) {j : PersonId} :
    t.person j = if j = s.people.nextId then some p else s.person j := by
  unfold State.person
  rw [hp, Table.find_insert]
  split <;> rfl

theorem person_nextId : s.person s.people.nextId = none := by
  rw [State.person, Table.find_nextId]
  rfl

theorem find_insert_old {base : Table StationAssignment} {k : AssignmentId} {b : StationAssignment}
    (h : base.find k = some b) : (base.insert a).find k = some b := by
  have hlt := Table.lt_nextId_of_find h
  rw [Table.find_insert, if_neg (by omega)]
  exact h

theorem Sound.hired (h : Sound s now v) (hp : t.people = s.people.insert (some p)) (ha : t.assignments = s.assignments.insert a)
    (hsound : p.Sound v s.people.nextId) (hactive : p.lifecycleStatus = .active) (hhome : Housed now s t s.people.nextId a) :
    Sound t now v := by
  obtain ⟨htype, huntil, hended⟩ := isOpenHome_iff.mp hhome.openHome
  have hnew : ∀ k b, s.assignments.find k = some b → b.person ≠ s.people.nextId := by
    intro k b hb hperson
    obtain ⟨r, hr, -⟩ := (h.assignment hb).known
    rw [hperson, person_nextId] at hr
    cases hr
  have hbegun : a.validFrom ≤ now :=
    hhome.begun ha (fun j b hb => (h.assignment hb).home) fun j b hb _ => hnew j b hb
  have hfind : t.person a.person = some p := by rw [hhome.person, person_insert hp, if_pos rfl]
  refine ⟨?_, ?_, ?_, ?_⟩
  · intro j r hr
    rw [person_insert hp] at hr
    split at hr
    · rename_i hj
      cases hr
      rw [hj]
      exact hsound
    · exact h.person hr
  · intro k b hb
    rw [ha] at hb
    rcases Table.find_insert_cases hb with ⟨-, rfl⟩ | hb
    · refine ⟨fun _ _ => huntil, fun ht => ?_, hbegun, p, hfind, fun hleft => absurd hactive hleft⟩
      rw [htype] at ht
      cases ht
    · refine (h.assignment hb).mono le_rfl fun r hr => ⟨r, ?_, .inl⟩
      rw [person_insert hp, if_neg (hnew k b hb)]
      exact hr
  · rw [ha]
    intro k k' b b' hb hb' hopen hopen' hsame
    rcases Table.find_insert_cases hb with ⟨hk, rfl⟩ | hold <;>
      rcases Table.find_insert_cases hb' with ⟨hk', rfl⟩ | hold'
    · rw [hk, hk']
    · exact absurd (hsame.symm.trans hhome.person) (hnew k' b' hold')
    · exact absurd (hsame.trans hhome.person) (hnew k b hold)
    · exact h.unique hold hold' hopen hopen' hsame
  · intro j r hr hractive
    rw [person_insert hp] at hr
    rw [ha]
    split at hr
    · rename_i hj
      refine ⟨s.assignments.nextId, a, ?_, hhome.person.trans hj.symm, hhome.openHome⟩
      rw [Table.find_insert, if_pos rfl]
    · obtain ⟨k, b, hb, hperson, hopen⟩ := h.housed hr hractive
      exact ⟨k, b, find_insert_old hb, hperson, hopen⟩

theorem Sound.deleted (h : Sound s now v) (hp : t.people = s.people.modify id fun _ => none)
    (ha : t.assignments = s.assignments) (hfree : ∀ k a, s.assignments.find k = some a → a.person ≠ id) : Sound t now v := by
  have hperson : ∀ j, t.person j = if j = id then none else s.person j := by
    intro j
    unfold State.person
    rw [hp, Table.find_modify]
    by_cases hj : j = id
    · subst hj
      rw [if_pos rfl, if_pos rfl]
      cases s.people.find j <;> rfl
    · rw [if_neg (Ne.symm hj), if_neg hj]
  have hsome : ∀ {j r}, t.person j = some r → s.person j = some r := by
    intro j r hr
    rw [hperson] at hr
    split at hr
    · cases hr
    · exact hr
  refine ⟨fun hr => h.person (hsome hr), ?_, ?_, ?_⟩ <;> rw [ha]
  · intro k b hb
    refine (h.assignment hb).mono le_rfl fun r hr => ⟨r, ?_, .inl⟩
    rw [hperson, if_neg (hfree k b hb)]
    exact hr
  · exact h.unique
  · exact fun hr => h.housed (hsome hr)

/-- A temporary assignment of an active person is added. -/
theorem Sound.lent (h : Sound s now v) (hfind : s.person id = some p) (hactive : p.lifecycleStatus = .active)
    (hperson : a.person = id) (htype : a.assignmentType = .temporary) (hfrom : a.validFrom = now)
    (huntil : a.validUntil.isSome = true) (hp : t.people = s.people) (ha : t.assignments = s.assignments.insert a) :
    Sound t now v := by
  have hpeople := person_congr hp
  have hnotopen : a.isOpenHome ≠ true := fun hopen => by
    rw [(isOpenHome_iff.mp hopen).1] at htype
    cases htype
  refine ⟨?_, ?_, ?_, ?_⟩ <;> simp only [hpeople, ha]
  · exact h.person
  · intro k b hb
    rcases Table.find_insert_cases hb with ⟨-, rfl⟩ | hb
    · refine ⟨fun ht => ?_, fun _ => Option.isSome_iff_ne_none.mp huntil, hfrom.le, p, ?_, fun hleft => absurd hactive hleft⟩
      · rw [htype] at ht
        cases ht
      · rw [hpeople, hperson]
        exact hfind
    · exact (h.assignment hb).mono le_rfl fun r hr => ⟨r, (hpeople _).trans hr, .inl⟩
  · intro k k' b b' hb hb' hopen hopen' hsame
    rcases Table.find_insert_cases hb with ⟨-, rfl⟩ | hb
    · exact absurd hopen hnotopen
    · rcases Table.find_insert_cases hb' with ⟨-, rfl⟩ | hb'
      · exact absurd hopen' hnotopen
      · exact h.unique hb hb' hopen hopen' hsame
  · intro j r hr hractive
    obtain ⟨k, b, hb, hbperson, hopen⟩ := h.housed hr hractive
    exact ⟨k, b, find_insert_old hb, hbperson, hopen⟩

theorem Sound.ended (h : Sound s now v) {k : AssignmentId} {by' : Option Actor} (hfind : s.assignments.find k = some a)
    (htype : a.assignmentType = .temporary) (hp : t.people = s.people)
    (ha : t.assignments = s.assignments.modify k fun _ => { a with endedAt := some now, endedBy := by' }) : Sound t now v := by
  have hpeople := person_congr hp
  have hclosed : ({ a with endedAt := some now, endedBy := by' } : StationAssignment).Sound _ _ :=
    (h.assignment hfind).close rfl rfl rfl (Option.some_ne_none now) fun hne => hne
  have hnotopen := not_isOpenHome_of_ended (a := { a with endedAt := some now, endedBy := by' }) (Option.some_ne_none now)
  refine ⟨?_, ?_, ?_, ?_⟩ <;> simp only [hpeople, ha]
  · exact h.person
  · intro j b hb
    rcases Table.find_modify_cases hfind hb with ⟨-, rfl⟩ | ⟨-, hb⟩
    · exact hclosed.mono le_rfl fun r hr => ⟨r, (hpeople _).trans hr, .inl⟩
    · exact (h.assignment hb).mono le_rfl fun r hr => ⟨r, (hpeople _).trans hr, .inl⟩
  · intro j j' b b' hb hb' hopen hopen' hsame
    rcases Table.find_modify_cases hfind hb with ⟨-, rfl⟩ | ⟨-, hb⟩
    · exact absurd hopen hnotopen
    · rcases Table.find_modify_cases hfind hb' with ⟨-, rfl⟩ | ⟨-, hb'⟩
      · exact absurd hopen' hnotopen
      · exact h.unique hb hb' hopen hopen' hsame
  · intro j r hr hractive
    obtain ⟨i, b, hb, hbperson, hopen⟩ := h.housed hr hractive
    have hne : k ≠ i := by
      rintro rfl
      rw [hfind] at hb
      cases hb
      rw [(isOpenHome_iff.mp hopen).1] at htype
      cases htype
    refine ⟨i, b, ?_, hbperson, hopen⟩
    rw [Table.find_modify, if_neg hne]
    exact hb

/-- The home in force is closed and another one takes its place. -/
theorem Sound.transferred (h : Sound s now v) {k : AssignmentId} {old closed new : StationAssignment}
    (hfind : s.person id = some p) (hactive : p.lifecycleStatus = .active) (hold : s.assignments.find k = some old)
    (hclosed : closed = { old with validUntil := closed.validUntil, endedAt := some now, endedBy := closed.endedBy })
    (hsome : closed.validUntil ≠ none) (hp : t.people = s.people)
    (ha : t.assignments = (s.assignments.modify k fun _ => closed).insert new)
    (hfree : ∀ j b, j ≠ k → s.assignments.find j = some b → b.isOpenHome = true → b.person ≠ id)
    (howner : old.person = id) (hhome : Housed now s t id new) : Sound t now v := by
  have hpeople := person_congr hp
  have hended : closed.endedAt ≠ none := by
    rw [hclosed]
    exact Option.some_ne_none now
  have hover : closed.Sound s now :=
    (h.assignment hold).close (congrArg (·.person) hclosed) (congrArg (·.assignmentType) hclosed)
      (congrArg (·.validFrom) hclosed) hended fun _ => hsome
  have hbase : ∀ {j b}, (s.assignments.modify k fun _ => closed).find j = some b →
      b.Sound s now ∧ (b.isOpenHome = true → b.person ≠ id ∧ s.assignments.find j = some b) := by
    intro j b hb
    rcases Table.find_modify_cases hold hb with ⟨-, rfl⟩ | ⟨hj, hb⟩
    · exact ⟨hover, fun hopen => absurd hopen (not_isOpenHome_of_ended hended)⟩
    · exact ⟨h.assignment hb, fun hopen => ⟨hfree j b hj hb hopen, hb⟩⟩
  have hbegun : new.validFrom ≤ now :=
    hhome.begun ha (fun j b hb => (hbase hb).1.home) fun j b hb hopen => ((hbase hb).2 hopen).1
  obtain ⟨htype, huntil, -⟩ := isOpenHome_iff.mp hhome.openHome
  refine ⟨?_, ?_, ?_, ?_⟩ <;> simp only [hpeople, ha]
  · exact h.person
  · intro j b hb
    rcases Table.find_insert_cases hb with ⟨-, rfl⟩ | hb
    · refine ⟨fun _ _ => huntil, fun ht => ?_, hbegun, p, ?_, fun hleft => absurd hactive hleft⟩
      · rw [htype] at ht
        cases ht
      · rw [hpeople, hhome.person]
        exact hfind
    · exact (hbase hb).1.mono le_rfl fun r hr => ⟨r, (hpeople _).trans hr, .inl⟩
  · intro j j' b b' hb hb' hopen hopen' hsame
    rcases Table.find_insert_cases hb with ⟨hj, rfl⟩ | hkept <;>
      rcases Table.find_insert_cases hb' with ⟨hj', rfl⟩ | hkept'
    · rw [hj, hj']
    · exact absurd (hsame.symm.trans hhome.person) ((hbase hkept').2 hopen').1
    · exact absurd (hsame.trans hhome.person) ((hbase hkept).2 hopen).1
    · exact h.unique ((hbase hkept).2 hopen).2 ((hbase hkept').2 hopen').2 hopen hopen' hsame
  · intro j r hr hractive
    obtain ⟨i, b, hb, hbperson, hopen⟩ := h.housed hr hractive
    by_cases hi : i = k
    · subst hi
      rw [hold] at hb
      cases hb
      refine ⟨(s.assignments.modify i fun _ => closed).nextId, new, ?_, hhome.person.trans (howner.symm.trans hbperson),
        hhome.openHome⟩
      rw [Table.find_insert, if_pos rfl]
    · refine ⟨i, b, find_insert_old ?_, hbperson, hopen⟩
      rw [Table.find_modify, if_neg (Ne.symm hi)]
      exact hb

theorem Sound.offboarded (h : Sound s now v) {f : StationAssignment → StationAssignment} (hfind : s.person id = some p)
    (hp : t.people = s.people.modify id fun _ => some q) (ha : t.assignments = ⟨s.assignments.rows.map f⟩)
    (hq : q.Sound v id) (hleft : q.lifecycleStatus ≠ .active)
    (hends : ∀ a, a.person = id → a.endedAt = none → a.validUntil = none →
      (f a).person = a.person ∧ (f a).assignmentType = a.assignmentType ∧ (f a).validFrom = a.validFrom ∧
        (f a).validUntil = some now ∧ (f a).endedAt = some now)
    (hkeeps : ∀ a, ¬(a.person = id ∧ a.endedAt = none ∧ a.validUntil = none) → f a = a)
    {retention : Option Time} (hdeparts : Departs now s id p retention) : Sound t now v := by
  have hrow : ∀ {k b}, t.assignments.find k = some b → ∃ a, s.assignments.find k = some a ∧ b = f a := by
    intro k b hb
    rw [ha, Table.find_map] at hb
    obtain ⟨a, hfind, hsame⟩ := Option.map_eq_some_iff.mp hb
    exact ⟨a, hfind, hsame.symm⟩
  have hperson : ∀ j, t.person j = if j = id then some q else s.person j := fun j => person_modify hp hfind
  -- Every assignment of the person is over, the rest is as it was.
  have hover : ∀ {k a}, s.assignments.find k = some a → a.person = id →
      (f a).Sound s now ∧ (f a).person = id ∧ (∀ u, now ≤ u → (f a).isCurrent u = false) ∧ (f a).isOpenHome ≠ true := by
    intro k a hfa howner
    have hsound := h.assignment hfa
    by_cases hopen : a.endedAt = none ∧ a.validUntil = none
    · obtain ⟨hsame, htype, hfrom, huntil, hended⟩ := hends a howner hopen.1 hopen.2
      have hne : (f a).endedAt ≠ none := by
        rw [hended]
        exact Option.some_ne_none now
      refine ⟨hsound.close hsame htype hfrom hne fun hno => absurd hopen.2 hno, hsame.trans howner, ?_,
        not_isOpenHome_of_ended hne⟩
      exact fun _ _ => isCurrent_eq_false_of_ended hne
    · have hsame : f a = a := hkeeps a fun hall => hopen hall.2
      rw [hsame]
      refine ⟨hsound, howner, ?_, fun ho => hopen ⟨(isOpenHome_iff.mp ho).2.2, (isOpenHome_iff.mp ho).2.1⟩⟩
      intro u hu
      rcases hdeparts with ⟨-, hnone⟩ | ⟨hdeparted, -⟩
      · by_cases hended : a.endedAt = none
        · have htype : a.assignmentType = .temporary := by
            cases htype : a.assignmentType with
            | home => exact absurd ⟨hended, hsound.home htype hended⟩ hopen
            | temporary => rfl
          -- Not in force now means that it has expired.
          have hnow := hnone k a hfa howner htype
          rw [Bool.eq_false_iff] at hnow ⊢
          intro hcurrent
          obtain ⟨-, -, huntil⟩ := isCurrent_iff.mp hcurrent
          exact hnow (isCurrent_iff.mpr ⟨hsound.begun, hended, fun e he => hu.trans_lt (huntil e he)⟩)
        · exact isCurrent_eq_false_of_ended hended
      · obtain ⟨r, hr, hgone⟩ := hsound.known
        rw [howner, hfind] at hr
        cases hr
        exact hgone (by rw [hdeparted]; nofun) u hu
  have hother : ∀ {a}, a.person ≠ id → f a = a := fun hne => hkeeps _ fun hall => hne hall.1
  refine ⟨?_, ?_, ?_, ?_⟩
  · intro j r hr
    rw [hperson] at hr
    split at hr
    · rename_i hj
      cases hr
      rw [hj]
      exact hq
    · exact h.person hr
  · intro k b hb
    obtain ⟨a, hfa, rfl⟩ := hrow hb
    by_cases howner : a.person = id
    · obtain ⟨hsound, hsame, hgone, -⟩ := hover hfa howner
      refine hsound.mono le_rfl fun r hr => ⟨q, ?_, fun _ => .inr hgone⟩
      rw [hperson, if_pos hsame]
    · rw [hother howner]
      refine (h.assignment hfa).mono le_rfl fun r hr => ⟨r, ?_, .inl⟩
      rw [hperson, if_neg howner]
      exact hr
  · intro k k' b b' hb hb' hopen hopen' hsame
    obtain ⟨a, hfa, rfl⟩ := hrow hb
    obtain ⟨a', hfa', rfl⟩ := hrow hb'
    have hne : a.person ≠ id := fun howner => (hover hfa howner).2.2.2 hopen
    have hne' : a'.person ≠ id := fun howner => (hover hfa' howner).2.2.2 hopen'
    rw [hother hne] at hopen hsame
    rw [hother hne'] at hopen' hsame
    exact h.unique hfa hfa' hopen hopen' hsame
  · intro j r hr hractive
    rw [hperson] at hr
    split at hr
    · cases hr
      exact absurd hractive hleft
    · rename_i hj
      obtain ⟨k, b, hb, hbperson, hopen⟩ := h.housed hr hractive
      refine ⟨k, b, ?_, hbperson, hopen⟩
      rw [ha, Table.find_map, hb, Option.map_some, hother (hbperson ▸ hj)]

/-! ### Runs -/

/-- An edit keeps what a person's columns must agree on. -/
theorem Edit.sound (he : Edit p q) (h : p.Sound v id) (hc : q.consistent = true)
    (hstatus : q.lifecycleStatus = p.lifecycleStatus) : q.Sound v id := by
  refine ⟨hc, fun hleft => ?_, fun hverified => ?_⟩
  · rw [hstatus] at hleft
    obtain ⟨hno, hnone⟩ := h.left hleft
    cases he with
    | names he hm hv => exact ⟨he.trans hno, hm.trans hnone⟩
    | eligibility hactive hm hv => exact absurd hactive hleft
    | email hp he hv =>
      rw [hno] at hp
      cases hp
  · cases he with
    | names he hm hv =>
      rw [he, hm]
      exact h.verified (hv ▸ hverified)
    | eligibility hactive hm hv =>
      rw [hv] at hverified
      by_cases hq : q.incidentCommanderEligible = true
      · rw [if_pos hq] at hverified
        exact ⟨hq, hm.trans (h.verified hverified).2⟩
      · rw [if_neg hq] at hverified
        exact absurd rfl hverified
    | email hp he hv => exact absurd hv hverified

/-- A person who left, with every commander column cleared. -/
theorem sound_of_left (hc : q.consistent = true) (he : q.incidentCommanderEligible = false)
    (hm : q.incidentCommanderEmail = none) (hv : q.emailVerifiedAt = none) : q.Sound v id :=
  ⟨hc, fun _ => ⟨he, hm⟩, fun hverified => absurd hv hverified⟩

theorem Sound.effect (h : Sound s now v) (e : Effect now s v t v') : Sound t now v' := by
  cases e with
  | free hp ha => exact h.congr hp ha
  | hired p a hp ha hc hactive hv hhome =>
    exact h.hired hp ha ⟨hc, fun hleft => absurd hactive hleft, fun hverified => absurd hv hverified⟩ hactive hhome
  | edited id p q hfind hc hp ha hstatus hret he =>
    exact h.save hp ha hfind (he.sound (h.person hfind) hc hstatus) (fun _ _ => rfl) (by rw [hstatus])
  | verified id p q hfind hc hp ha hstatus hret he he' hm =>
    have hactive : q.lifecycleStatus = .active := by
      by_contra hleft
      rw [hstatus] at hleft
      rw [((h.person hfind).left hleft).1] at he
      cases he
    refine h.save hp ha hfind ⟨hc, fun hleft => absurd hactive hleft, fun _ => ⟨he', ?_⟩⟩ (fun j hj => ?_) (by rw [hstatus])
    · rw [Function.update_self, hm]
    · rw [Function.update_of_ne hj]
  | deleted id hfree hp ha => exact h.deleted hp ha hfree
  | transferred id p k old closed new hfind hactive hold howner huntil hclosed hp ha hfree hhome =>
    exact h.transferred hfind ((active_iff (h.person hfind).consistent).mp hactive) hold hclosed huntil hp ha hfree howner hhome
  | lent id p a hfind hactive hperson htype hfrom huntil hp ha =>
    exact h.lent hfind ((active_iff (h.person hfind).consistent).mp hactive) hperson htype hfrom huntil hp ha
  | ended k a by' hfind htype hp ha => exact h.ended hfind htype hp ha
  | offboarded id p q f hfind hc hp ha hends hkeeps hstatus he hm hv hdeparts =>
    exact h.offboarded hfind hp ha (sound_of_left hc he hm hv) (by rw [hstatus]; nofun) hends hkeeps hdeparts
  | anonymized id p q hfind hc hp ha hdeparted hstatus hret he hm hv =>
    exact h.save hp ha hfind (sound_of_left hc he hm hv) (fun _ _ => rfl) (by rw [hstatus, hdeparted]; simp)

/-- What a save does to the lifecycle of one person, seen at any person. -/
theorem keeps_of_modify (hp : t.people = s.people.modify id fun _ => some q) (hfind : s.person id = some p)
    {R : Person → Person → Prop} (hR : ∀ r, R r r) (hq : R p q) {j : PersonId} {r r' : Person} (hr : s.person j = some r)
    (hr' : t.person j = some r') : R r r' := by
  rw [person_modify hp hfind] at hr'
  split at hr'
  · rename_i hj
    rw [hj, hfind] at hr
    cases hr
    cases hr'
    exact hq
  · rw [hr] at hr'
    cases hr'
    exact hR r

/-- The lifecycle only moves forward, and the retention of a person who left stays. -/
def Person.Advances (p q : Person) : Prop :=
  (q.lifecycleStatus = p.lifecycleStatus ∨ (p.lifecycleStatus = .active ∧ q.lifecycleStatus = .departed) ∨
    (p.lifecycleStatus = .departed ∧ q.lifecycleStatus = .anonymized)) ∧
  (p.lifecycleStatus ≠ .active → q.retentionUntil = p.retentionUntil)

theorem Person.Advances.refl (p : Person) : p.Advances p := ⟨.inl rfl, fun _ => rfl⟩

theorem Effect.advances (e : Effect now s v t v') {j : PersonId} {r r' : Person} (hr : s.person j = some r)
    (hr' : t.person j = some r') : r.Advances r' := by
  have hsame : t.people = s.people → r.Advances r' := by
    intro hp
    rw [person_congr hp, hr] at hr'
    cases hr'
    exact .refl r
  cases e with
  | free hp ha => exact hsame hp
  | hired p a hp ha hc hactive hv hhome =>
    have hne : j ≠ s.people.nextId := by
      rintro rfl
      rw [person_nextId] at hr
      cases hr
    rw [person_insert hp, if_neg hne, hr] at hr'
    cases hr'
    exact .refl r
  | edited id p q hfind hc hp ha hstatus hret he =>
    exact keeps_of_modify hp hfind Person.Advances.refl ⟨.inl hstatus, fun _ => hret⟩ hr hr'
  | verified id p q hfind hc hp ha hstatus hret he he' hm =>
    exact keeps_of_modify hp hfind Person.Advances.refl ⟨.inl hstatus, fun _ => hret⟩ hr hr'
  | deleted id hfree hp ha =>
    unfold State.person at hr hr'
    rw [hp, Table.find_modify] at hr'
    split at hr'
    · rw [Option.join_eq_some_iff.mp hr] at hr'
      cases hr'
    · rw [hr] at hr'
      cases hr'
      exact .refl r
  | transferred id p k old closed new hfind hactive hold howner huntil hclosed hp ha hfree hhome => exact hsame hp
  | lent id p a hfind hactive hperson htype hfrom huntil hp ha => exact hsame hp
  | ended k a by' hfind htype hp ha => exact hsame hp
  | offboarded id p q f hfind hc hp ha hends hkeeps hstatus he hm hv hdeparts =>
    refine keeps_of_modify hp hfind Person.Advances.refl ?_ hr hr'
    rcases hdeparts with ⟨hactive, -⟩ | ⟨hdeparted, hret⟩
    · exact ⟨.inr (.inl ⟨hactive, hstatus⟩), fun hleft => absurd hactive hleft⟩
    · exact ⟨.inl (hstatus.trans hdeparted.symm), fun _ => hret.symm⟩
  | anonymized id p q hfind hc hp ha hdeparted hstatus hret he hm hv =>
    exact keeps_of_modify hp hfind Person.Advances.refl ⟨.inr (.inr ⟨hdeparted, hstatus⟩), fun _ => hret⟩ hr hr'

end

section

variable {cfg : Config} {w w' : World}

theorem Sound.holds (h : Sound w.state w.clock w.verified) : Holds w where
  housed id p hp hactive := by
    obtain ⟨k, a, ha, hperson, hopen⟩ := h.housed hp hactive
    obtain ⟨htype, huntil, hended⟩ := isOpenHome_iff.mp hopen
    have hcurrent : a.isCurrent w.clock = true :=
      isCurrent_iff.mpr ⟨(h.assignment ha).begun, hended, fun e he => by rw [huntil] at he; cases he⟩
    refine ⟨k, ⟨a, ⟨ha, hcurrent⟩, hperson, htype⟩, ?_⟩
    rintro k' ⟨b, ⟨hb, hbcurrent⟩, hbperson, hbtype⟩
    have hbended := (isCurrent_iff.mp hbcurrent).2.1
    have hbopen := isOpenHome_iff.mpr ⟨hbtype, (h.assignment hb).home hbtype hbended, hbended⟩
    exact h.unique hb ha hbopen hopen (hbperson.trans hperson.symm)
  released id p hp hleft := by
    refine ⟨fun k a hcurrent hperson => ?_, ((h.person hp).left hleft).2⟩
    obtain ⟨ha, hnow⟩ := hcurrent
    obtain ⟨r, hr, hover⟩ := (h.assignment ha).known
    rw [hperson, hp] at hr
    cases hr
    rw [hover hleft w.clock le_rfl] at hnow
    cases hnow
  verified id p hp := (h.person hp).verified

theorem Sound.step (h : Sound w.state w.clock w.verified) {a : Env × Call} (hregular : Regular a.1 w.state a.2)
    (hs : (system cfg).step w a w') : Sound w'.state w'.clock w'.verified ∧ Keeps w w' := by
  obtain ⟨hle, rfl⟩ := hs
  have heffect := @after_effect cfg _ _ (fun hp => (h.person hp).consistent) _ hregular
  refine ⟨(h.mono hle).effect heffect, ?_, ?_⟩
  · exact fun _ _ _ hp hp' => (heffect.advances hp hp').1
  · exact fun _ _ _ hp hp' => (heffect.advances hp hp').2

theorem sound_of_init (h : (system cfg).init w) : Sound w.state w.clock w.verified := by
  obtain ⟨hpeople, hassignments⟩ := h
  have hnone : ∀ id, w.state.person id = none := fun id => by simp [State.person, hpeople, Table.find]
  have hempty : ∀ k, w.state.assignments.find k = none := fun k => by simp [hassignments, Table.find]
  refine ⟨?_, ?_, ?_, ?_⟩ <;> simp [hnone, hempty]

/-- In every run whose offboardings are regular, every state and every step keeps the lifecycle. -/
theorem lifecycle_kept {w₀ : World} {trace : List (World × (Env × Call) × World)} (h : (system cfg).Run w₀ trace w)
    (hregular : ∀ e ∈ trace, Regular e.2.1.1 e.1.state e.2.1.2) :
    Holds w ∧ ∀ e ∈ trace, Holds e.1 ∧ Keeps e.1 e.2.2 := by
  suffices hrun : Sound w.state w.clock w.verified ∧ ∀ e ∈ trace, Holds e.1 ∧ Keeps e.1 e.2.2 from
    ⟨hrun.1.holds, hrun.2⟩
  induction h with
  | start hinit => exact ⟨sound_of_init hinit, by simp⟩
  | @next t t' trace a h hs ih =>
    obtain ⟨hsound, hsteps⟩ := ih fun e he => hregular e (List.mem_append_left _ he)
    obtain ⟨hsound', hkeeps⟩ := hsound.step (hregular (t, a, t') (by simp)) hs
    refine ⟨hsound', fun e he => ?_⟩
    rcases List.mem_append.mp he with he | he
    · exact hsteps e he
    · rw [List.mem_singleton.mp he]
      exact ⟨hsound.holds, hkeeps⟩

end

/-! ### People who leave -/

def sampleConfig : Config where
  publications := Publications.sampleConfig
  casefold value := value

def sampleEnv (now : Time) : Env where
  publications := { now := now }
  isDepartmentAdmin _ _ := true
  activeStationIds _ := []
  operational _ := true
  station id := some ⟨id, 0, true⟩
  referenced _ := false

def next (w : World) (a : Env × Call) : World := after sampleConfig a.1 a.2 w

def hire : Env × Call := (sampleEnv 1, .createPersonWithHome ⟨0, true⟩ ⟨0, 0, true⟩ 1 none)

def setPolicy : Env × Call := (sampleEnv 2, .setRetentionPolicy 1 0 10)

def offboard (now : Time) : Env × Call := (sampleEnv now, .offboardPerson 1 0)

theorem run_next {w : World} {calls : List (Env × Call)} (hinit : (system sampleConfig).init w)
    (hclock : ∀ e ∈ Machine.steps next w calls, e.1.clock ≤ e.2.1.1.now) :
    (system sampleConfig).Run w (Machine.steps next w calls) (calls.foldl next w) := by
  have hstart : (system sampleConfig).Run w [] w := .start hinit
  exact hstart.steps fun e he => ⟨hclock e he, (Machine.of_mem_steps he).2⟩

theorem departs_of_homes {s : State} {now : Time} {id : PersonId} {p : Person} {retention : Option Time}
    (hp : s.person id = some p) (hactive : (s.person id).map (·.lifecycleStatus) = some .active)
    (hhomes : (s.assignments.rows.all fun a => a.assignmentType = .home) = true) : Departs now s id p retention := by
  rw [hp] at hactive
  refine .inl ⟨Option.some.inj hactive, fun k a ha _ htype => ?_⟩
  have hhome := List.all_eq_true.mp hhomes a (List.mem_of_getElem? ha)
  rw [of_decide_eq_true hhome] at htype
  cases htype

def departed : List (Env × Call) := [hire, setPolicy, offboard 3]

/-- A person is hired and leaves. -/
theorem departed_lifecycle_kept : ((departed.foldl next {}).state.person 0).map (fun p => (p.lifecycleStatus, p.retentionUntil)) =
    some (.departed, some 13) ∧ Holds (departed.foldl next {}) := by
  have hrun : (system sampleConfig).Run {} (Machine.steps next {} departed) (departed.foldl next {}) :=
    run_next ⟨rfl, rfl⟩ (by decide +kernel)
  refine ⟨by decide +kernel, (lifecycle_kept hrun fun e he => ?_).1⟩
  simp only [departed, Machine.steps, List.mem_cons, List.not_mem_nil, or_false] at he
  rcases he with rfl | rfl | rfl
  · trivial
  · trivial
  · intro p policy hp _ _
    exact departs_of_homes hp (by decide +kernel) (by decide +kernel)

def lend : Env × Call := (sampleEnv 3, .createTemporaryAssignment 0 ⟨1, 0, true⟩ 1 (some 100) [])

def anonymize (now : Time) : Env × Call := (sampleEnv now, .anonymizePerson 1 0)

def offboardedTwice : List (Env × Call) := [hire, setPolicy, lend, offboard 4, anonymize 20, offboard 30]

/-- A person leaves while lent out, is anonymized, and is offboarded once more. -/
theorem offboarded_twice : (system sampleConfig).Run {} (Machine.steps next {} offboardedTwice) (offboardedTwice.foldl next {}) ∧
    (Machine.steps next {} offboardedTwice).map (fun e => (e.2.2.state.person 0).map fun p => (p.lifecycleStatus, p.retentionUntil)) =
      [some (.active, none), some (.active, none), some (.active, none), some (.departed, some 14),
        some (.anonymized, some 14), some (.departed, some 40)] ∧
    ¬Holds (offboardedTwice.foldl next {}) ∧ ¬∀ e ∈ Machine.steps next {} offboardedTwice, Keeps e.1 e.2.2 := by
  refine ⟨run_next ⟨rfl, rfl⟩ (by decide +kernel), by decide +kernel, fun hholds => ?_, fun hkeeps => ?_⟩
  · have hperson : ((offboardedTwice.foldl next {}).state.person 0).map (·.lifecycleStatus) = some .departed := by
      decide +kernel
    have hlent : ((offboardedTwice.foldl next {}).state.assignments.find 1).map
        (fun a => (a.person, a.isCurrent (offboardedTwice.foldl next {}).clock)) = some (0, true) := by decide +kernel
    obtain ⟨p, hp, hstatus⟩ := Option.map_eq_some_iff.mp hperson
    obtain ⟨a, ha, hsame⟩ := Option.map_eq_some_iff.mp hlent
    obtain ⟨howner, hcurrent⟩ := Prod.mk.inj hsame
    exact (hholds.released 0 p hp (by rw [hstatus]; nofun)).1 1 a ⟨ha, hcurrent⟩ howner
  · have hmem := @Machine.mem_steps World (Env × Call) next {} [hire, setPolicy, lend, offboard 4, anonymize 20] (offboard 30) []
    have hbefore : (([hire, setPolicy, lend, offboard 4, anonymize 20].foldl next {}).state.person 0).map (·.lifecycleStatus) =
        some .anonymized := by decide +kernel
    have hafter : ((next ([hire, setPolicy, lend, offboard 4, anonymize 20].foldl next {}) (offboard 30)).state.person 0).map
        (·.lifecycleStatus) = some .departed := by decide +kernel
    obtain ⟨p, hp, hstatus⟩ := Option.map_eq_some_iff.mp hbefore
    obtain ⟨p', hp', hstatus'⟩ := Option.map_eq_some_iff.mp hafter
    have hmoves := (hkeeps _ hmem).status 0 p p' hp hp'
    rw [hstatus, hstatus'] at hmoves
    rcases hmoves with hno | ⟨hno, -⟩ | ⟨hno, -⟩ <;> cases hno

end FireDash.Personnel
