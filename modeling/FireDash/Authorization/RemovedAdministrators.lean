import FireDash.Authorization.LastAdministrator

/-! What is left of an administrator who was permanently removed. -/
namespace FireDash.Authorization

open Json (Text)

variable {normalizeEmail : Text → Text} {s t u : Accounts} {actor user user' : UserId} {department : DepartmentId}
  {anonymousEmail email tokenHash : Text}

namespace Accounts

/-- The display name of a removed account. -/
def deletedAdministrator : Text := "Deleted administrator".toList.map Char.toNat

/-- An account under a drawn address that nobody signs in to, and that no setup token opens. -/
structure Out (s : Accounts) (user : UserId) (email : Text) : Prop where
  account : ∃ row, s.users.find user = some row ∧ row.email = email ∧ row.displayName = deletedAdministrator ∧
    row.isActive = false ∧ row.mfaEnabled = false ∧ row.usablePassword = false
  spent : ∀ i token, s.setupTokens.find i = some token → token.user = user → token.usedAt ≠ none

theorem Out.same (h : s.Out user email) (husers : t.users = s.users) (htokens : t.setupTokens = s.setupTokens) : t.Out user email := by
  constructor
  · rw [husers]
    exact h.account
  · rw [htokens]
    exact h.spent

theorem Out.inactive (h : s.Out user email) : s.userIsActive user = false := by
  obtain ⟨row, hrow, -, -, hinactive, -⟩ := h.account
  unfold userIsActive
  rw [hrow]
  exact hinactive

theorem Out.not_administers (h : s.Out user email) : ¬s.Administers user department := by
  rintro ⟨⟨i, m⟩, hmem, rfl⟩
  obtain ⟨-, -, hactive, -⟩ := mem_effective.mp hmem
  rw [h.inactive] at hactive
  cases hactive

/-! ### Calls -/

/-- A new account has a number of its own. -/
theorem Out.provision {newEmail displayName : Text} (h : s.Out user email)
    (hs : s.provisionDepartmentAdmin normalizeEmail actor department newEmail displayName tokenHash = .ok t) : t.Out user email := by
  unfold provisionDepartmentAdmin at hs
  obtain ⟨status, -, hs⟩ := bind_eq_ok.mp hs
  obtain ⟨_, -, hs⟩ := bind_eq_ok.mp hs
  obtain ⟨created, hcreated, hs⟩ := bind_eq_ok.mp hs
  unfold createSetupToken at hcreated
  simp only [check_eq_ok, pure_eq_ok] at hcreated
  obtain ⟨-, -, -, -, rfl⟩ := hcreated
  unfold createMembership at hs
  split at hs
  · cases hs
  cases hs
  obtain ⟨row, hrow, hout⟩ := h.account
  have hold : user ≠ s.users.nextId := (Table.lt_nextId_of_find hrow).ne
  constructor
  · refine ⟨row, ?_, hout⟩
    rw [Table.find_insert, if_neg hold]
    exact hrow
  · intro i token htoken hof
    rw [Table.find_insert] at htoken
    split at htoken
    · cases htoken
      exact absurd hof.symm hold
    · exact h.spent i token htoken hof

/-- Its tokens are spent, so a token that still opens an account opens another one. -/
theorem Out.consume (h : s.Out user email) : (s.consumeSetupToken tokenHash).Out user email := by
  unfold consumeSetupToken
  split
  · rename_i id token hfirst
    obtain ⟨htoken, -⟩ := Table.first_eq_some hfirst
    split
    · rename_i husable
      have hother : token.user ≠ user := fun hof => h.spent id token htoken hof husable.1
      obtain ⟨row, hrow, hout⟩ := h.account
      constructor
      · refine ⟨row, ?_, hout⟩
        rw [Table.find_modify, if_neg hother]
        exact hrow
      · intro i token' htoken' hof
        rcases Table.find_modify_cases htoken htoken' with ⟨-, rfl⟩ | ⟨-, hold⟩
        · exact absurd hof hother
        · exact h.spent i token' hold hof
    · exact h
  · exact h

theorem revokeMemberships_accounts {l : List (MembershipId × DepartmentMembership)} (h : s.revokeMemberships department actor l = .ok t) :
    t.users = s.users ∧ t.setupTokens = s.setupTokens := by
  induction l generalizing s with
  | nil =>
    cases h
    exact ⟨rfl, rfl⟩
  | cons e l ih =>
    unfold revokeMemberships at h
    obtain ⟨_, -, h⟩ := bind_eq_ok.mp h
    split at h
    · obtain ⟨husers, htokens⟩ := ih h
      exact ⟨husers, htokens⟩
    · exact ih h

theorem permanentlyRemoveAdministrator_accounts (hs : s.permanentlyRemoveAdministrator actor user department anonymousEmail = .ok t) :
    ∃ u : Accounts, u.users = s.users ∧ u.setupTokens = s.setupTokens ∧
      u.permanentlyDeactivateAndAnonymizeUser user anonymousEmail = .ok t := by
  unfold permanentlyRemoveAdministrator at hs
  obtain ⟨_, -, hs⟩ := bind_eq_ok.mp hs
  obtain ⟨_, -, hs⟩ := bind_eq_ok.mp hs
  obtain ⟨-, hs⟩ := check_eq_ok.mp hs
  obtain ⟨-, hs⟩ := check_eq_ok.mp hs
  obtain ⟨-, hs⟩ := check_eq_ok.mp hs
  obtain ⟨u, hloop, hs⟩ := bind_eq_ok.mp hs
  obtain ⟨husers, htokens⟩ := revokeMemberships_accounts hloop
  exact ⟨u.revokeStationAssignments actor user department, husers, htokens, hs⟩

/-- The tokens of an anonymized account are spent, and the others stay as they are. -/
theorem find_anonymized {i : ℕ} {token : AccountSetupToken} (hs : s.permanentlyDeactivateAndAnonymizeUser user anonymousEmail = .ok t)
    (htoken : t.setupTokens.find i = some token) :
    ∃ old, s.setupTokens.find i = some old ∧ token.user = old.user ∧ (old.usedAt ≠ none ∨ old.user = user → token.usedAt ≠ none) := by
  unfold permanentlyDeactivateAndAnonymizeUser at hs
  split at hs
  · cases hs
  cases hs
  rw [Table.find_map] at htoken
  obtain ⟨old, hold, rfl⟩ := Option.map_eq_some_iff.mp htoken
  refine ⟨old, hold, ?_, fun hwas => ?_⟩
  · split <;> rfl
  · split
    · exact Option.some_ne_none _
    · rename_i hunspent
      rcases hwas with hused | hof
      · exact hused
      · exact fun hunused => hunspent ⟨hof, hunused⟩

theorem out_of_anonymized {row : User} (hrow : s.users.find user = some row)
    (hs : s.permanentlyDeactivateAndAnonymizeUser user anonymousEmail = .ok t) : t.Out user anonymousEmail := by
  constructor
  · unfold permanentlyDeactivateAndAnonymizeUser at hs
    split at hs
    · cases hs
    cases hs
    refine ⟨{ row with
      email := anonymousEmail, displayName := deletedAdministrator, isActive := false, mfaEnabled := false, usablePassword := false },
      ?_, rfl, rfl, rfl, rfl, rfl⟩
    rw [Table.find_modify, if_pos rfl, hrow]
    rfl
  · intro i token htoken hof
    obtain ⟨old, -, hsame, hspent⟩ := find_anonymized hs htoken
    exact hspent (.inr (hsame.symm.trans hof))

/-- The anonymization of another account. -/
theorem Out.anonymize (h : s.Out user email) (hother : user' ≠ user)
    (hs : s.permanentlyDeactivateAndAnonymizeUser user' anonymousEmail = .ok t) : t.Out user email := by
  obtain ⟨row, hrow, hout⟩ := h.account
  constructor
  · unfold permanentlyDeactivateAndAnonymizeUser at hs
    split at hs
    · cases hs
    cases hs
    refine ⟨row, ?_, hout⟩
    rw [Table.find_modify, if_neg hother]
    exact hrow
  · intro i token htoken hof
    obtain ⟨old, hold, hkept, hspent⟩ := find_anonymized hs htoken
    exact hspent (.inl (h.spent i old hold (hkept.symm.trans hof)))

/-- A removed account stays out under its address, or under the address another removal of it draws. -/
theorem Out.perform {action : Action} (h : s.Out user email) (hs : s.perform normalizeEmail action = .ok t) :
    t.Out user email ∨ ∃ actor department drawn, action = .permanentlyRemoveAdministrator actor user department drawn ∧ t.Out user drawn := by
  cases action with
  | provisionDepartmentAdmin => exact .inl (h.provision hs)
  | suspendDepartmentAdmin =>
    simp only [Accounts.perform, suspendDepartmentAdmin] at hs
    obtain ⟨_, -, hs⟩ := bind_eq_ok.mp hs
    obtain ⟨_, -, hs⟩ := bind_eq_ok.mp hs
    obtain ⟨-, hs⟩ := check_eq_ok.mp hs
    obtain ⟨_, -, hs⟩ := bind_eq_ok.mp hs
    cases hs
    exact .inl (h.same rfl rfl)
  | reinstateDepartmentAdmin =>
    simp only [Accounts.perform, reinstateDepartmentAdmin] at hs
    obtain ⟨_, -, hs⟩ := bind_eq_ok.mp hs
    obtain ⟨_, -, hs⟩ := bind_eq_ok.mp hs
    obtain ⟨-, hs⟩ := check_eq_ok.mp hs
    obtain ⟨-, hs⟩ := check_eq_ok.mp hs
    cases hs
    exact .inl (h.same rfl rfl)
  | revokeDepartmentAdmin =>
    simp only [Accounts.perform, revokeDepartmentAdmin] at hs
    obtain ⟨_, -, hs⟩ := bind_eq_ok.mp hs
    obtain ⟨_, -, hs⟩ := bind_eq_ok.mp hs
    obtain ⟨-, hs⟩ := check_eq_ok.mp hs
    obtain ⟨_, -, hs⟩ := bind_eq_ok.mp hs
    cases hs
    exact .inl (h.same rfl rfl)
  | permanentlyRemoveAdministrator actor user' department drawn =>
    obtain ⟨u, husers, htokens, hs⟩ := permanentlyRemoveAdministrator_accounts hs
    have hout := h.same husers htokens
    by_cases hsame : user' = user
    · subst hsame
      obtain ⟨row, hrow, -⟩ := hout.account
      exact .inr ⟨actor, department, drawn, rfl, out_of_anonymized hrow hs⟩
    · exact .inl (hout.anonymize hsame hs)
  | consumeSetupToken =>
    cases hs
    exact .inl h.consume
  | _ =>
    cases hs
    exact .inl (h.same rfl rfl)

/-- The address that stands when an account was removed under `first` in `s`: `first`, or what a later removal of it drew. -/
def Drawn (normalizeEmail : Text → Text) (s t : Accounts) (user : UserId) (first email : Text) : Prop :=
  email = first ∨ ∃ v w actor department, (administration normalizeEmail).Later s v ∧
    v.perform normalizeEmail (.permanentlyRemoveAdministrator actor user department email) = .ok w ∧ (administration normalizeEmail).Later w t

theorem Drawn.step {first : Text} {action : Action} (h : Drawn normalizeEmail s t user first email) (hu : t.step normalizeEmail action = u) :
    Drawn normalizeEmail s u user first email := by
  rcases h with rfl | ⟨v, w, actor, department, hsv, hvw, hwt⟩
  · exact .inl rfl
  · exact .inr ⟨v, w, actor, department, hsv, hvw, hwt.tail ⟨action, hu⟩⟩

theorem Out.later (h : s.Out user email) (hst : (administration normalizeEmail).Later s t) :
    ∃ drawn, Drawn normalizeEmail s t user email drawn ∧ t.Out user drawn := by
  induction hst with
  | refl => exact ⟨email, .inl rfl, h⟩
  | @tail t u hst hs ih =>
    obtain ⟨drawn, hdrawn, hout⟩ := ih
    obtain ⟨action, hu⟩ := hs
    have hsame := hdrawn.step hu
    subst hu
    cases hperform : t.perform normalizeEmail action with
    | error e =>
      have hstays : t.step normalizeEmail action = t := by rw [step, hperform]
      rw [hstays] at hsame ⊢
      exact ⟨drawn, hsame, hout⟩
    | ok u =>
      have hdone : t.step normalizeEmail action = u := by rw [step, hperform]
      rw [hdone] at hsame ⊢
      rcases hout.perform hperform with hout | ⟨actor, department, drawn', rfl, hout⟩
      · exact ⟨drawn, hsame, hout⟩
      · exact ⟨drawn', .inr ⟨t, u, actor, department, hst, hperform, .refl⟩, hout⟩

/-- Who makes a call of the administrator services. -/
def actorOf : Action → Option UserId
  | .provisionDepartmentAdmin actor _ _ _ _ | .suspendDepartmentAdmin actor _ | .reinstateDepartmentAdmin actor _
  | .revokeDepartmentAdmin actor _ | .permanentlyRemoveAdministrator actor _ _ _ => some actor
  | _ => none

/-- Without an active account, no call is allowed. -/
theorem Out.refused {action : Action} (h : s.Out user email) (hactor : actorOf action = some user) : s.step normalizeEmail action = s := by
  unfold step
  split
  · rename_i t hs
    exfalso
    cases action with
    | provisionDepartmentAdmin actor department =>
      cases hactor
      simp only [Accounts.perform, provisionDepartmentAdmin] at hs
      obtain ⟨_, -, hs⟩ := bind_eq_ok.mp hs
      obtain ⟨_, hallowed, -⟩ := bind_eq_ok.mp hs
      unfold requireProvisioningActor isSystemAdmin inActiveDepartmentIds at hallowed
      rw [h.inactive] at hallowed
      cases hallowed
    | suspendDepartmentAdmin =>
      cases hactor
      obtain ⟨_, -, -, hadministers, -⟩ := suspendDepartmentAdmin_ok hs
      exact h.not_administers hadministers
    | reinstateDepartmentAdmin =>
      cases hactor
      obtain ⟨_, -, -, hadministers, -⟩ := reinstateDepartmentAdmin_ok hs
      exact h.not_administers hadministers
    | revokeDepartmentAdmin =>
      cases hactor
      obtain ⟨_, -, -, hadministers, -⟩ := revokeDepartmentAdmin_ok hs
      exact h.not_administers hadministers
    | permanentlyRemoveAdministrator =>
      cases hactor
      obtain ⟨-, hadministers, -⟩ := permanentlyRemoveAdministrator_ok hs
      exact h.not_administers hadministers
    | _ => cases hactor
  · rfl

end Accounts
end FireDash.Authorization
