import FireDash.Authorization.Administrators

/-! The last effective administrator of a department stays, and who may change the administrators. -/
namespace FireDash.Authorization

open Json (Text)

variable {normalizeEmail : Text → Text} {s t : Accounts} {actor user : UserId} {d department : DepartmentId}
  {id : MembershipId} {m : DepartmentMembership}

namespace Accounts

theorem found_eq_ok {α : Type} {row : Option α} {a : α} : found row = .ok a ↔ row = some a := by
  cases row <;> simp [found]

/-! ### Effective administrators -/

/-- An active account holds an active membership of the department. -/
def Staffed (s : Accounts) (department : DepartmentId) : Prop :=
  ∃ i m, s.memberships.find i = some m ∧ m.status = .active ∧ m.department = department ∧ s.userIsActive m.user = true

theorem mem_effective {i : MembershipId} :
    (i, m) ∈ s.effectiveDepartmentAdminMemberships d ↔ s.memberships.find i = some m ∧ m.status = .active ∧
      s.userIsActive m.user = true ∧ s.departmentIsActive d = true ∧ m.department = d := by
  unfold effectiveDepartmentAdminMemberships
  rw [Table.mem_filter]
  constructor
  · rintro ⟨hm, hsel⟩
    simp only [isEffective, decide_eq_true_eq] at hsel
    obtain ⟨hactive, huser, hdepartment, rfl⟩ := hsel
    exact ⟨hm, hactive, huser, hdepartment, rfl⟩
  · rintro ⟨hm, hactive, huser, hdepartment, rfl⟩
    exact ⟨hm, by simp [isEffective, hactive, huser, hdepartment]⟩

/-- In an active department, the effective memberships are those of active accounts. -/
theorem effective_ne_nil : s.effectiveDepartmentAdminMemberships d ≠ [] ↔ s.departmentIsActive d = true ∧ s.Staffed d := by
  constructor
  · intro h
    obtain ⟨⟨i, m⟩, hmem⟩ := List.exists_mem_of_ne_nil _ h
    obtain ⟨hm, hactive, huser, hdepartment, hof⟩ := mem_effective.mp hmem
    exact ⟨hdepartment, i, m, hm, hactive, hof, huser⟩
  · rintro ⟨hdepartment, i, m, hm, hactive, hof, huser⟩
    exact List.ne_nil_of_mem (mem_effective.mpr ⟨hm, hactive, huser, hdepartment, hof⟩)

/-- The account administers the department effectively. -/
def Administers (s : Accounts) (actor : UserId) (department : DepartmentId) : Prop :=
  ∃ e ∈ s.effectiveDepartmentAdminMemberships department, e.2.user = actor

theorem administers_of_inActiveDepartmentIds (h : s.inActiveDepartmentIds actor d = true) : s.Administers actor d := by
  simp only [inActiveDepartmentIds, Bool.and_eq_true] at h
  obtain ⟨⟨huser, hdepartment⟩, hany⟩ := h
  obtain ⟨i, m, hm, hsel⟩ := Table.any_eq_true.mp hany
  simp only [decide_eq_true_eq] at hsel
  obtain ⟨rfl, hof, hactive⟩ := hsel
  exact ⟨(i, m), mem_effective.mpr ⟨hm, hactive, huser, hdepartment, hof⟩, rfl⟩

theorem requireTenantLifecycleActor_ok (h : s.requireTenantLifecycleActor actor d = .ok ()) :
    s.isSystemAdmin actor = false ∧ s.departmentIsActive d = true ∧ s.Administers actor d := by
  unfold requireTenantLifecycleActor at h
  split at h
  · cases h
  · rename_i hsystem
    unfold requireDepartmentAdmin at h
    split at h
    · cases h
    · rename_i hscope
      simp only [not_or, Bool.not_eq_true, Bool.not_eq_false] at hscope hsystem
      exact ⟨hsystem, hscope.1, administers_of_inActiveDepartmentIds hscope.2⟩

/-! ### The guard -/

/-- Rows under different keys are not all under one. -/
theorem exists_other {l : List (ℕ × DepartmentMembership)} (hkeys : (l.map Prod.fst).Nodup) (hlength : 1 < l.length)
    (i : ℕ) : ∃ e ∈ l, e.1 ≠ i := by
  by_contra hnone
  have hall : ∀ k ∈ l.map Prod.fst, k = i := by
    intro k hk
    obtain ⟨e, he, rfl⟩ := List.mem_map.mp hk
    by_contra hne
    exact hnone ⟨e, he, hne⟩
  rw [List.eq_replicate_of_mem hall, List.nodup_replicate, List.length_map] at hkeys
  omega

/-- A membership changed behind the guard leaves every department staffed. -/
theorem Staffed.guarded {f : DepartmentMembership → DepartmentMembership} (hm : s.memberships.find id = some m)
    (hactive : s.departmentIsActive m.department = true)
    (hguard : s.preventLastEffectiveAdminRemoval m.department id m = .ok ()) (h : s.Staffed d) :
    (s.setMembership id f).Staffed d := by
  have hkeep : ∀ {i m'}, i ≠ id → s.memberships.find i = some m' →
      (s.setMembership id f).memberships.find i = some m' := by
    intro i m' hi hm'
    simp only [setMembership, Table.find_modify]
    rw [if_neg (Ne.symm hi)]
    exact hm'
  obtain ⟨i, m', hm', hstatus, hof, huser⟩ := h
  by_cases hi : i = id
  · subst hi
    rw [hm] at hm'
    cases hm'
    have hself : (i, m) ∈ s.effectiveDepartmentAdminMemberships m.department :=
      mem_effective.mpr ⟨hm, hstatus, huser, hactive, rfl⟩
    unfold preventLastEffectiveAdminRemoval at hguard
    split at hguard
    · exact absurd hstatus ‹_›
    split at hguard
    · rename_i hnone
      exact absurd (List.any_eq_true.mpr ⟨(i, m), hself, by simp⟩) hnone
    split at hguard
    · cases hguard
    · rename_i hlength
      obtain ⟨⟨j, m''⟩, hmem, hne⟩ := exists_other (Table.nodup_keys_filter _ _) (Nat.lt_of_not_le hlength) i
      obtain ⟨hm'', hstatus'', huser'', -, hof''⟩ := mem_effective.mp hmem
      exact ⟨j, m'', hkeep hne hm'', hstatus'', hof''.trans hof, huser''⟩
  · exact ⟨i, m', hkeep hi hm', hstatus, hof, huser⟩

/-- The loop over the memberships of an account revokes them all, and leaves every department staffed. -/
theorem revokeMemberships_ok {l : List (MembershipId × DepartmentMembership)}
    (h : s.revokeMemberships department actor l = .ok t) (hfound : ∀ e ∈ l, s.memberships.find e.1 = some e.2)
    (hkeys : (l.map Prod.fst).Nodup) (hof : ∀ e ∈ l, e.2.department = department)
    (hactive : s.departmentIsActive department = true) :
    t.users = s.users ∧ (∀ d, s.Staffed d → t.Staffed d) ∧
      ∀ i m, t.memberships.find i = some m → m.status = .active → s.memberships.find i = some m ∧ ∀ e ∈ l, e.1 ≠ i := by
  induction l generalizing s with
  | nil =>
    cases h
    exact ⟨rfl, fun _ hd => hd, fun _ _ hm _ => ⟨hm, by simp⟩⟩
  | cons e l ih =>
    obtain ⟨id, membership⟩ := e
    obtain ⟨hnot, hkeys⟩ := List.nodup_cons.mp hkeys
    have hm : s.memberships.find id = some membership := hfound _ List.mem_cons_self
    have hdepartment : membership.department = department := hof _ List.mem_cons_self
    unfold revokeMemberships at h
    obtain ⟨_, hguard, h⟩ := bind_eq_ok.mp h
    have hothers : ∀ e ∈ l, e.1 ≠ id := fun e he heq => hnot (List.mem_map.mpr ⟨e, he, heq⟩)
    split at h
    · have hfound' : ∀ e ∈ l, (s.setMembership id (revoked s.now actor)).memberships.find e.1 = some e.2 := by
        intro e he
        simp only [setMembership, Table.find_modify]
        rw [if_neg (hothers e he).symm]
        exact hfound e (List.mem_cons_of_mem _ he)
      obtain ⟨husers, hstaffed, hrows⟩ := ih h hfound' hkeys (fun e he => hof e (List.mem_cons_of_mem _ he)) hactive
      refine ⟨husers, fun d hd => hstaffed d ?_, fun i m hrow hstatus => ?_⟩
      · rw [← hdepartment] at hguard hactive
        exact hd.guarded hm hactive hguard
      · obtain ⟨hrow', hnotin⟩ := hrows i m hrow hstatus
        rcases Table.find_modify_cases hm hrow' with ⟨rfl, rfl⟩ | ⟨hne, hrow'⟩
        · cases hstatus
        · exact ⟨hrow', List.forall_mem_cons.mpr ⟨Ne.symm hne, hnotin⟩⟩
    · rename_i hrevoked
      obtain ⟨husers, hstaffed, hrows⟩ := ih h (fun e he => hfound e (List.mem_cons_of_mem _ he)) hkeys
        (fun e he => hof e (List.mem_cons_of_mem _ he)) hactive
      refine ⟨husers, hstaffed, fun i m hrow hstatus => ?_⟩
      obtain ⟨hrow', hnotin⟩ := hrows i m hrow hstatus
      refine ⟨hrow', List.forall_mem_cons.mpr ⟨fun heq => ?_, hnotin⟩⟩
      rw [← show id = i from heq, hm] at hrow'
      cases hrow'
      rw [not_not] at hrevoked
      rw [hrevoked] at hstatus
      cases hstatus

/-! ### Calls -/

theorem Staffed.of_memberships (h : s.Staffed d) (hmemberships : t.memberships = s.memberships)
    (husers : ∀ u, s.userIsActive u = true → t.userIsActive u = true) : t.Staffed d := by
  obtain ⟨i, m, hm, hstatus, hof, huser⟩ := h
  exact ⟨i, m, by rw [hmemberships]; exact hm, hstatus, hof, husers _ huser⟩

theorem userIsActive_eq_true : s.userIsActive user = true ↔ ∃ row, s.users.find user = some row ∧ row.isActive = true := by
  unfold userIsActive
  cases s.users.find user <;> simp

theorem createSetupToken_ok {email displayName tokenHash : Text} {created : UserId × Accounts}
    (h : createSetupToken normalizeEmail s actor email displayName tokenHash = .ok created) :
    created.2.memberships = s.memberships ∧ ∀ u, s.userIsActive u = true → created.2.userIsActive u = true := by
  unfold createSetupToken at h
  simp only [check_eq_ok, pure_eq_ok] at h
  obtain ⟨-, -, -, -, rfl⟩ := h
  refine ⟨rfl, fun u hu => ?_⟩
  obtain ⟨row, hrow, hactive⟩ := userIsActive_eq_true.mp hu
  refine userIsActive_eq_true.mpr ⟨row, ?_, hactive⟩
  rw [Table.find_insert, if_neg (Table.lt_nextId_of_find hrow).ne]
  exact hrow

/-- A new membership is provisioned for a department whose administrators allow it. -/
theorem provisionDepartmentAdmin_ok {email displayName tokenHash : Text}
    (h : s.provisionDepartmentAdmin normalizeEmail actor d email displayName tokenHash = .ok t) :
    (s.isSystemAdmin actor = true → s.departmentIsActive d = true ∧ s.effectiveDepartmentAdminMemberships d = []) ∧
      (∃ row, t.memberships.find s.memberships.nextId = some row ∧ row.department = d) ∧
      ∀ d', s.Staffed d' → t.Staffed d' := by
  unfold provisionDepartmentAdmin at h
  obtain ⟨status, hstatus, h⟩ := bind_eq_ok.mp h
  obtain ⟨_, hactor, h⟩ := bind_eq_ok.mp h
  obtain ⟨created, hcreated, h⟩ := bind_eq_ok.mp h
  obtain ⟨hmemberships, husers⟩ := createSetupToken_ok hcreated
  unfold createMembership at h
  split at h
  · cases h
  cases h
  refine ⟨fun hsystem => ?_, ⟨_, by rw [hmemberships, Table.find_insert, if_pos rfl], rfl⟩, fun d' hd => ?_⟩
  · unfold requireProvisioningActor at hactor
    rw [if_pos hsystem] at hactor
    split at hactor
    · cases hactor
    · rename_i hoperational
      split at hactor
      · cases hactor
      · rename_i horphaned
        rw [not_not] at hoperational horphaned
        rw [hoperational] at hstatus
        exact ⟨by simp [departmentIsActive, found_eq_ok.mp hstatus], horphaned⟩
  · obtain ⟨i, m, hm, hrest⟩ := hd.of_memberships hmemberships husers
    refine ⟨i, m, ?_, hrest⟩
    rw [Table.find_insert, if_neg (Table.lt_nextId_of_find hm).ne]
    exact hm

/-- An administrator of the department changed a membership, and none was left without administrators. -/
def Managed (s : Accounts) (actor : UserId) (id : ℕ) (t : Accounts) : Prop :=
  ∃ m, s.memberships.find id = some m ∧ s.isSystemAdmin actor = false ∧ s.Administers actor m.department ∧
    t.memberships.nextId = s.memberships.nextId ∧ ∀ d, s.Staffed d → t.Staffed d

theorem suspendDepartmentAdmin_ok (h : s.suspendDepartmentAdmin actor id = .ok t) : s.Managed actor id t := by
  unfold suspendDepartmentAdmin at h
  obtain ⟨m, hm, h⟩ := bind_eq_ok.mp h
  obtain ⟨_, hactor, h⟩ := bind_eq_ok.mp h
  obtain ⟨-, h⟩ := check_eq_ok.mp h
  obtain ⟨_, hguard, h⟩ := bind_eq_ok.mp h
  rw [found_eq_ok] at hm
  obtain ⟨hsystem, hactive, hadministers⟩ := requireTenantLifecycleActor_ok hactor
  cases h
  exact ⟨m, hm, hsystem, hadministers, by simp [setMembership], fun d hd => hd.guarded hm hactive hguard⟩

theorem revokeDepartmentAdmin_ok (h : s.revokeDepartmentAdmin actor id = .ok t) : s.Managed actor id t := by
  unfold revokeDepartmentAdmin at h
  obtain ⟨m, hm, h⟩ := bind_eq_ok.mp h
  obtain ⟨_, hactor, h⟩ := bind_eq_ok.mp h
  obtain ⟨-, h⟩ := check_eq_ok.mp h
  obtain ⟨_, hguard, h⟩ := bind_eq_ok.mp h
  rw [found_eq_ok] at hm
  obtain ⟨hsystem, hactive, hadministers⟩ := requireTenantLifecycleActor_ok hactor
  cases h
  exact ⟨m, hm, hsystem, hadministers, by simp [setMembership], fun d hd => hd.guarded hm hactive hguard⟩

/-- A reinstated membership is one more. -/
theorem reinstateDepartmentAdmin_ok (h : s.reinstateDepartmentAdmin actor id = .ok t) : s.Managed actor id t := by
  unfold reinstateDepartmentAdmin at h
  obtain ⟨m, hm, h⟩ := bind_eq_ok.mp h
  obtain ⟨_, hactor, h⟩ := bind_eq_ok.mp h
  obtain ⟨-, h⟩ := check_eq_ok.mp h
  obtain ⟨-, h⟩ := check_eq_ok.mp h
  rw [found_eq_ok] at hm
  obtain ⟨hsystem, -, hadministers⟩ := requireTenantLifecycleActor_ok hactor
  cases h
  refine ⟨m, hm, hsystem, hadministers, by simp [setMembership], fun d hd => ?_⟩
  obtain ⟨i, m', hm', hstatus, hrest⟩ := hd
  by_cases hi : id = i
  · subst hi
    exact ⟨id, { m' with status := .active }, by simp [setMembership, hm'], rfl, hrest⟩
  · exact ⟨i, m', by simp [setMembership, hi, hm'], hstatus, hrest⟩

/-- An account is removed with all its memberships of one department, and has none elsewhere. -/
theorem permanentlyRemoveAdministrator_ok {anonymousEmail : Text}
    (h : s.permanentlyRemoveAdministrator actor user department anonymousEmail = .ok t) :
    s.isSystemAdmin actor = false ∧ s.Administers actor department ∧ ∀ d, s.Staffed d → t.Staffed d := by
  unfold permanentlyRemoveAdministrator at h
  obtain ⟨_, -, h⟩ := bind_eq_ok.mp h
  obtain ⟨_, hactor, h⟩ := bind_eq_ok.mp h
  obtain ⟨-, h⟩ := check_eq_ok.mp h
  obtain ⟨-, h⟩ := check_eq_ok.mp h
  obtain ⟨helsewhere, h⟩ := check_eq_ok.mp h
  obtain ⟨u, hloop, h⟩ := bind_eq_ok.mp h
  obtain ⟨hsystem, hactive, hadministers⟩ := requireTenantLifecycleActor_ok hactor
  have hselected : ∀ {i m}, (i, m) ∈ s.memberships.filter (fun m => m.user = user ∧ m.department = department) ↔
      s.memberships.find i = some m ∧ m.user = user ∧ m.department = department := by
    intro i m
    rw [Table.mem_filter]
    simp
  obtain ⟨husers, hstaffed, hrows⟩ := revokeMemberships_ok hloop (fun e he => (hselected.mp he).1)
    (Table.nodup_keys_filter _ _) (fun e he => (hselected.mp he).2.2) hactive
  refine ⟨hsystem, hadministers, fun d hd => ?_⟩
  obtain ⟨i, m, hm, hstatus, hof, huser⟩ := hstaffed d hd
  obtain ⟨hold, hnotin⟩ := hrows i m hm hstatus
  have hother : m.user ≠ user := by
    intro hsame
    by_cases hdepartment : m.department = department
    · exact hnotin (i, m) (hselected.mpr ⟨hold, hsame, hdepartment⟩) rfl
    · exact helsewhere (.inl (Table.any_eq_true.mpr ⟨i, m, hold, by simp [hsame, hstatus, hdepartment]⟩))
  unfold permanentlyDeactivateAndAnonymizeUser at h
  split at h
  · cases h
  cases h
  refine ⟨i, m, hm, hstatus, hof, ?_⟩
  obtain ⟨row, hrow, hrowActive⟩ := userIsActive_eq_true.mp huser
  refine userIsActive_eq_true.mpr ⟨row, ?_, hrowActive⟩
  simp only [revokeStationAssignments, Table.find_modify]
  rw [if_neg hother.symm]
  exact hrow

theorem consumeSetupToken_staffed {tokenHash : Text} (h : s.Staffed d) : (s.consumeSetupToken tokenHash).Staffed d := by
  unfold consumeSetupToken
  split
  · split
    · refine h.of_memberships rfl fun u hu => ?_
      obtain ⟨row, hrow, hactive⟩ := userIsActive_eq_true.mp hu
      refine userIsActive_eq_true.mpr ?_
      rw [Table.find_modify, hrow]
      split
      · exact ⟨_, rfl, rfl⟩
      · exact ⟨row, rfl, hactive⟩
    · exact h
  · exact h

/-- No call leaves a staffed department without staff. -/
theorem Staffed.perform {action : Action} (hs : s.perform normalizeEmail action = .ok t) (h : s.Staffed d) :
    t.Staffed d := by
  cases action with
  | provisionDepartmentAdmin => exact (provisionDepartmentAdmin_ok hs).2.2 d h
  | suspendDepartmentAdmin =>
    obtain ⟨-, -, -, -, -, hstaffed⟩ := suspendDepartmentAdmin_ok hs
    exact hstaffed d h
  | reinstateDepartmentAdmin =>
    obtain ⟨-, -, -, -, -, hstaffed⟩ := reinstateDepartmentAdmin_ok hs
    exact hstaffed d h
  | revokeDepartmentAdmin =>
    obtain ⟨-, -, -, -, -, hstaffed⟩ := revokeDepartmentAdmin_ok hs
    exact hstaffed d h
  | permanentlyRemoveAdministrator => exact (permanentlyRemoveAdministrator_ok hs).2.2 d h
  | consumeSetupToken =>
    cases hs
    exact consumeSetupToken_staffed h
  | editAuthority =>
    cases hs
    exact h
  | editDepartments =>
    cases hs
    exact h
  | tick =>
    cases hs
    exact h

theorem Staffed.later (hst : (administration normalizeEmail).Later s t) (h : s.Staffed d) : t.Staffed d := by
  have hkept := (Machine.Reachable.init (M := administration normalizeEmail) (s := s) trivial).later
    (R := fun s t => s.Staffed d → t.Staffed d) (fun _ h => h) (fun h h' hs => h' (h hs)) ?_ hst
  · exact hkept.2 h
  · intro s action t _ hs hstaffed
    rw [show t = s.step normalizeEmail action from hs.symm]
    unfold step
    split
    · exact hstaffed.perform ‹_›
    · exact hstaffed

/-- The actor and the department of a call that changes the standing of an administrator. -/
def lifecycleOf (s : Accounts) : Action → Option (UserId × DepartmentId)
  | .suspendDepartmentAdmin actor id | .reinstateDepartmentAdmin actor id | .revokeDepartmentAdmin actor id =>
    (s.memberships.find id).map fun m => (actor, m.department)
  | .permanentlyRemoveAdministrator actor _ department _ => some (actor, department)
  | _ => none

theorem lifecycle_actor {action : Action} (hs : s.perform normalizeEmail action = .ok t)
    (htarget : s.lifecycleOf action = some (actor, d)) : s.isSystemAdmin actor = false ∧ s.Administers actor d := by
  cases action with
  | suspendDepartmentAdmin =>
    obtain ⟨m, hm, hsystem, hadministers, -⟩ := suspendDepartmentAdmin_ok hs
    simp only [lifecycleOf, hm, Option.map_some, Option.some.injEq, Prod.mk.injEq] at htarget
    obtain ⟨rfl, rfl⟩ := htarget
    exact ⟨hsystem, hadministers⟩
  | reinstateDepartmentAdmin =>
    obtain ⟨m, hm, hsystem, hadministers, -⟩ := reinstateDepartmentAdmin_ok hs
    simp only [lifecycleOf, hm, Option.map_some, Option.some.injEq, Prod.mk.injEq] at htarget
    obtain ⟨rfl, rfl⟩ := htarget
    exact ⟨hsystem, hadministers⟩
  | revokeDepartmentAdmin =>
    obtain ⟨m, hm, hsystem, hadministers, -⟩ := revokeDepartmentAdmin_ok hs
    simp only [lifecycleOf, hm, Option.map_some, Option.some.injEq, Prod.mk.injEq] at htarget
    obtain ⟨rfl, rfl⟩ := htarget
    exact ⟨hsystem, hadministers⟩
  | permanentlyRemoveAdministrator =>
    obtain ⟨hsystem, hadministers, -⟩ := permanentlyRemoveAdministrator_ok hs
    cases htarget
    exact ⟨hsystem, hadministers⟩
  | _ => cases htarget

/-- The memberships of the loop keep their keys. -/
theorem revokeMemberships_nextId {l : List (MembershipId × DepartmentMembership)}
    (h : s.revokeMemberships department actor l = .ok t) : t.memberships.nextId = s.memberships.nextId := by
  induction l generalizing s with
  | nil =>
    cases h
    rfl
  | cons e l ih =>
    unfold revokeMemberships at h
    obtain ⟨_, -, h⟩ := bind_eq_ok.mp h
    split at h
    · rw [ih h]
      exact Table.nextId_modify _ _ _
    · exact ih h

/-- Memberships are added by `provision_department_admin` only. -/
theorem added_membership {action : Action} (hs : s.perform normalizeEmail action = .ok t)
    (hadded : t.memberships.nextId ≠ s.memberships.nextId) : ∃ actor d email displayName tokenHash,
      action = .provisionDepartmentAdmin actor d email displayName tokenHash := by
  cases action with
  | provisionDepartmentAdmin actor d email displayName tokenHash => exact ⟨actor, d, email, displayName, tokenHash, rfl⟩
  | suspendDepartmentAdmin =>
    obtain ⟨-, -, -, -, hsame, -⟩ := suspendDepartmentAdmin_ok hs
    exact absurd hsame hadded
  | reinstateDepartmentAdmin =>
    obtain ⟨-, -, -, -, hsame, -⟩ := reinstateDepartmentAdmin_ok hs
    exact absurd hsame hadded
  | revokeDepartmentAdmin =>
    obtain ⟨-, -, -, -, hsame, -⟩ := revokeDepartmentAdmin_ok hs
    exact absurd hsame hadded
  | permanentlyRemoveAdministrator actor user department anonymousEmail =>
    simp only [perform, permanentlyRemoveAdministrator] at hs
    obtain ⟨_, -, hs⟩ := bind_eq_ok.mp hs
    obtain ⟨_, -, hs⟩ := bind_eq_ok.mp hs
    obtain ⟨-, hs⟩ := check_eq_ok.mp hs
    obtain ⟨-, hs⟩ := check_eq_ok.mp hs
    obtain ⟨-, hs⟩ := check_eq_ok.mp hs
    obtain ⟨u, hloop, hs⟩ := bind_eq_ok.mp hs
    unfold permanentlyDeactivateAndAnonymizeUser at hs
    split at hs
    · cases hs
    · cases hs
      exact absurd (revokeMemberships_nextId hloop) hadded
  | consumeSetupToken tokenHash =>
    cases hs
    refine absurd ?_ hadded
    unfold consumeSetupToken
    split
    · split <;> rfl
    · rfl
  | _ =>
    cases hs
    exact absurd rfl hadded

/-- Whatever calls any actors make over any departments: an active department that has an effective
administrator has one whenever it is active; an administrator is suspended, reinstated, revoked or
removed by an effective administrator of the department who is no system administrator; and a
system administrator adds a membership only to an active department without one. -/
theorem last_administrator_stays (normalizeEmail : Text → Text) (s : Accounts) :
    (∀ t d, (administration normalizeEmail).Later s t → s.effectiveDepartmentAdminMemberships d ≠ [] →
      t.departmentIsActive d = true → t.effectiveDepartmentAdminMemberships d ≠ []) ∧
    (∀ action t actor d, s.perform normalizeEmail action = .ok t → s.lifecycleOf action = some (actor, d) →
      s.isSystemAdmin actor = false ∧ ∃ e ∈ s.effectiveDepartmentAdminMemberships d, e.2.user = actor) ∧
    ∀ action t, s.perform normalizeEmail action = .ok t → t.memberships.nextId ≠ s.memberships.nextId →
      ∃ actor d email displayName tokenHash row,
        action = .provisionDepartmentAdmin actor d email displayName tokenHash ∧
        t.memberships.find s.memberships.nextId = some row ∧ row.department = d ∧
        (s.isSystemAdmin actor = true → s.departmentIsActive d = true ∧ s.effectiveDepartmentAdminMemberships d = []) := by
  refine ⟨?_, fun action t actor d hs htarget => lifecycle_actor hs htarget, ?_⟩
  · intro t d hst heffective hactive
    obtain ⟨-, hstaffed⟩ := effective_ne_nil.mp heffective
    exact effective_ne_nil.mpr ⟨hactive, hstaffed.later hst⟩
  · intro action t hs hadded
    obtain ⟨actor, d, email, displayName, tokenHash, rfl⟩ := added_membership hs hadded
    obtain ⟨hbootstrap, ⟨row, hrow, hof⟩, -⟩ := provisionDepartmentAdmin_ok hs
    exact ⟨actor, d, email, displayName, tokenHash, row, rfl, hrow, hof, hbootstrap⟩

/-! ### A department of two administrators -/

def twoAdministrators : Accounts where
  users := ⟨[⟨[97], [97], true, false, true⟩, ⟨[98], [98], true, false, true⟩]⟩
  departments := ⟨[.active]⟩
  memberships := ⟨[{ user := 0, department := 0, createdBy := 0 }, { user := 1, department := 0, createdBy := 0 }]⟩

/-- The first one suspends the second one, and the department is not left without administrators. -/
theorem suspended_leaves_one : ∃ t, twoAdministrators.perform (fun e => e) (.suspendDepartmentAdmin 0 1) = .ok t ∧
    t.effectiveDepartmentAdminMemberships 0 ≠ [] := by
  have hs : twoAdministrators.perform (fun e => e) (.suspendDepartmentAdmin 0 1) =
      .ok (twoAdministrators.step (fun e => e) (.suspendDepartmentAdmin 0 1)) := by rfl
  refine ⟨_, hs, ?_⟩
  have hlater : (administration fun e => e).Later twoAdministrators (twoAdministrators.step (fun e => e) (.suspendDepartmentAdmin 0 1)) :=
    Machine.Later.step (a := .suspendDepartmentAdmin 0 1) rfl
  exact (last_administrator_stays (fun e => e) twoAdministrators).1 _ 0 hlater (by decide) (by decide)

end Accounts
end FireDash.Authorization
