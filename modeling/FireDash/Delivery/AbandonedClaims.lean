import FireDash.Delivery.Completeness

/-! Delivery workers claim a row in one transaction and build it in another: what becomes of
the rows whose worker does not come back. -/
namespace FireDash.Delivery

open Publications Tx

/-! ### Claims in hand -/

/-- A row that a worker claimed and has yet to build. -/
inductive Claim where
  | grant (id : ℕ)
  | manifest (id : ℕ)
  deriving DecidableEq

/-- A transaction of the delivery system, or the end of a worker that holds a claim. -/
inductive Work where
  | act (action : Action)
  | crash (claim : Claim)

/-- The claim a build works on. -/
def Action.builds : Action → Option Claim
  | buildClaimedDatasetKeyGrant _ id _ => some (.grant id)
  | buildClaimedSignedManifest _ id _ _ => some (.manifest id)
  | _ => none

/-- The claim an action makes. -/
def Action.takes (s : State) : Action → Option Claim
  | claimNextDatasetKeyGrant locked =>
    match (Delivery.claimNextDatasetKeyGrant locked s).1 with
    | .ok (some id) => some (.grant id)
    | _ => none
  | claimNextSignedManifest excludeIds locked =>
    match (Delivery.claimNextSignedManifest excludeIds locked s).1 with
    | .ok (some id) => some (.manifest id)
    | _ => none
  | _ => none

/-- The claims in hand after an action. A build is attempted once, also when it raises. -/
def heldAfter (s : State) (a : Action) (held : List Claim) : List Claim :=
  match a.builds with
  | some claim => held.erase claim
  | none => (a.takes s).toList ++ held

/-- The delivery machine beside the claims its workers hold. -/
def staffed (crypto : DeliveryCrypto) (hash : ManifestState → String) :
    Machine (State × List Claim) (Settings × Work) where
  init w := Deployed w.1 ∧ w.2 = []
  step w a w' :=
    match a.2 with
    | .act action => (delivery crypto hash).step w.1 (a.1, action) w'.1 ∧
        (∀ claim, action.builds = some claim → claim ∈ w.2) ∧ w'.2 = heldAfter w.1 action w.2
    | .crash claim => claim ∈ w.2 ∧ w'.1 = w.1 ∧ w'.2 = w.2.erase claim

/-- The row of a claim is marked as running. -/
def State.Running (s : State) : Claim → Prop
  | .grant id => ∃ g, s.db.keyGrants.find id = some g ∧ g.status = .running
  | .manifest id => ∃ m, s.signedManifests.find id = some m ∧ m.status = .running

/-! ### Rows that are not lost -/

def GrantClaimable (s : State) (id : ℕ) : Prop := ∃ locked, (claimNextDatasetKeyGrant locked s).1 = .ok (some id)

def ManifestClaimable (s : State) (id : ℕ) : Prop :=
  ∃ excludeIds locked, (claimNextSignedManifest excludeIds locked s).1 = .ok (some id)

/-- The query of `process_next_generation_key_grant` finds the row. -/
def GenerationClaimable (s : State) (id : ℕ) : Prop :=
  ∃ locked : List ℕ, (oldest KeyGrant.createdAt (fun i g => (g.status = .pending ∨ g.status = .running) ∧ i ∉ locked)
    s.db.generationKeyGrants).map Prod.fst = some id

/-- Every request that comes to the row makes it pending again. -/
def GrantRequestable (s : State) (id : ℕ) : Prop :=
  ∀ publication installation now r t, requestDatasetKeyGrant publication installation true now s = (.ok r, t) →
    r.1 = id → r.2.status = .pending

def ManifestRequestable (s : State) (id : ℕ) : Prop :=
  ∀ settings installation generation now clock r t,
    requestManifest settings installation generation now clock s = (.ok r, t) → r.requestId = id →
    ∃ m, t.signedManifests.find id = some m ∧ m.status = .pending

/-- Every row is in an end state, in the hands of a worker, or can be claimed or requested again. -/
structure Attended (s : State) (held : List Claim) : Prop where
  grants : ∀ id g, s.db.keyGrants.find id = some g → g.status = .ready ∨ g.status = .failed ∨ g.status = .revoked ∨
    .grant id ∈ held ∨ GrantClaimable s id ∨ GrantRequestable s id
  manifests : ∀ id m, s.signedManifests.find id = some m → m.status = .ready ∨ m.status = .failed ∨
    .manifest id ∈ held ∨ ManifestClaimable s id ∨ ManifestRequestable s id
  generationGrants : ∀ id g, s.db.generationKeyGrants.find id = some g →
    g.status = .ready ∨ g.status = .failed ∨ g.status = .revoked ∨ GenerationClaimable s id

/-! ### Steps that lose a claim -/

/-- The wrapped key of an authorized publication does not unwrap under the key of the worker. -/
def UnwrapFails (crypto : DeliveryCrypto) (worker : DeliveryWorker) (s : State) (g : KeyGrant) (now : Time) : Prop :=
  ∃ context vehicle publications p kek, authorizedPublications s g.appInstallation now = .ok (context, vehicle, publications) ∧
    s.db.publications.find g.publication = some p ∧ g.publication ∈ publications.map Prod.fst ∧ worker.kek = some kek ∧
    kek.length = 32 ∧ p.artifact.wrappedCek ≠ [] ∧ crypto.aesKeyUnwrap kek p.artifact.wrappedCek = none

/-- The address of the rescue guides on record is refused, once the grants were requested. -/
def CapabilitiesRefused (settings : Settings) (s : State) (m : SignedManifest) (now clock : Time) : Prop :=
  settings.validWebUrl s.fleet.rescueGuidesUrl = false ∧ ∃ context publications grants t,
    manifestPublications s m.appInstallation now = .ok (context, publications) ∧
      requestGrants m.appInstallation false clock publications s = (.ok grants, t)

/-- The build ends in an error that it does not handle. -/
def Breaks (crypto : DeliveryCrypto) (settings : Settings) (s : State) : Action → Prop
  | .buildClaimedDatasetKeyGrant worker id now => ∃ g, s.db.keyGrants.find id = some g ∧ UnwrapFails crypto worker s g now
  | .buildClaimedSignedManifest _ id now clock =>
    ∃ m, s.signedManifests.find id = some m ∧ CapabilitiesRefused settings s m now clock
  | _ => False

/-- No running row loses its only worker in the step. -/
def KeepsClaims (crypto : DeliveryCrypto) (w : State × List Claim) (a : Settings × Work) : Prop :=
  match a.2 with
  | .act action => ∀ claim, action.builds = some claim → w.1.Running claim →
      claim ∈ w.2.erase claim ∨ ¬Breaks crypto a.1 w.1 action
  | .crash claim => w.1.Running claim → claim ∈ w.2.erase claim

variable {s t u : State} {crypto : DeliveryCrypto} {settings : Settings}

/-! ### Claims and requests find the rows -/

/-- The only selected row is the oldest one. -/
theorem oldest_of_unique {α : Type} {createdAt : α → Time} {select : ℕ → α → Bool} {t : Table α} {i : ℕ} {a : α}
    (ha : t.find i = some a) (hs : select i a = true) (hu : ∀ j b, t.find j = some b → select j b = true → j = i) :
    oldest createdAt select t = some (i, a) := by
  cases h : oldest createdAt select t with
  | none =>
    have hnil := List.head?_eq_none_iff.mp h
    have hmem : (i, a) ∈ (t.entries.filter fun e => select e.1 e.2).insertionSort fun a b => createdAt a.2 ≤ createdAt b.2 := by
      rw [List.mem_insertionSort, List.mem_filter, Table.mem_entries]
      exact ⟨ha, hs⟩
    rw [hnil] at hmem
    cases hmem
  | some row =>
    obtain ⟨j, b⟩ := row
    obtain ⟨hb, hsel⟩ := oldest_eq_some h
    obtain rfl := hu j b hb hsel
    rw [ha] at hb
    cases hb
    rfl

/-- The other keys of a table. -/
def others {α : Type} (t : Table α) (id : ℕ) : List ℕ := (t.entries.map Prod.fst).filter (· ≠ id)

theorem eq_of_not_mem_others {α : Type} {t : Table α} {id j : ℕ} {b : α} (hb : t.find j = some b) (hj : j ∉ others t id) :
    j = id := by
  by_contra hne
  refine hj (List.mem_filter.mpr ⟨List.mem_map.mpr ⟨(j, b), Table.mem_entries.mpr hb, rfl⟩, ?_⟩)
  exact decide_eq_true hne

theorem not_mem_others {α : Type} (t : Table α) (id : ℕ) : id ∉ others t id := by
  simp [others]

theorem claimable_of_pending {id : ℕ} {g : KeyGrant} (hg : s.db.keyGrants.find id = some g) (hst : g.status = .pending) :
    GrantClaimable s id := by
  refine ⟨others s.db.keyGrants id, ?_⟩
  have holdest : oldest KeyGrant.createdAt (fun i g => g.status = .pending ∧ i ∉ others s.db.keyGrants id) s.db.keyGrants =
      some (id, g) :=
    oldest_of_unique hg (decide_eq_true ⟨hst, not_mem_others _ _⟩)
      fun j b hb hsel => eq_of_not_mem_others hb (of_decide_eq_true hsel).2
  have hwp : wp (claimNextDatasetKeyGrant (others s.db.keyGrants id)) (fun r _ => r = some id) (fun _ _ => False) s := by
    simp only [claimNextDatasetKeyGrant, wp_atomic, wp_bind, wp_get, holdest, wp_modify, wp_pure]
  obtain ⟨r, t, hrun, rfl⟩ := hwp.exists_ok
  rw [hrun]

theorem manifestClaimable_of_pending {id : ℕ} {m : SignedManifest} (hm : s.signedManifests.find id = some m)
    (hst : m.status = .pending) : ManifestClaimable s id := by
  refine ⟨[], others s.signedManifests id, ?_⟩
  have holdest : oldest SignedManifest.createdAt
      (fun i m => m.status = .pending ∧ i ∉ [] ∧ i ∉ others s.signedManifests id) s.signedManifests = some (id, m) :=
    oldest_of_unique hm (decide_eq_true ⟨hst, by simp, not_mem_others _ _⟩)
      fun j b hb hsel => eq_of_not_mem_others hb (of_decide_eq_true hsel).2.2
  have hwp : wp (claimNextSignedManifest [] (others s.signedManifests id)) (fun r _ => r = some id) (fun _ _ => False) s := by
    simp only [claimNextSignedManifest, wp_atomic, wp_bind, wp_get, holdest, wp_modify, wp_pure]
  obtain ⟨r, t, hrun, rfl⟩ := hwp.exists_ok
  rw [hrun]

theorem generationClaimable_of_open {id : ℕ} {g : KeyGrant} (hg : s.db.generationKeyGrants.find id = some g)
    (hst : g.status = .pending ∨ g.status = .running) : GenerationClaimable s id := by
  refine ⟨others s.db.generationKeyGrants id, ?_⟩
  rw [oldest_of_unique hg (decide_eq_true ⟨hst, not_mem_others _ _⟩)
    fun j b hb hsel => eq_of_not_mem_others hb (of_decide_eq_true hsel).2]
  rfl

/-- A request that comes to a manifest given up makes it pending again. -/
theorem manifestRequestable_of_obsolete {id : ℕ} {m : SignedManifest} (hm : s.signedManifests.find id = some m)
    (hst : m.status = .obsolete) : ManifestRequestable s id := by
  intro settings installation generation now clock r t hrun hid
  have hwp : wp (requestManifest settings installation generation now clock)
      (fun r t => r.requestId = id → ∃ m, t.signedManifests.find id = some m ∧ m.status = .pending) (fun _ _ => True) s := by
    simp only [requestManifest, wp_atomic, wp_bind, wp_get, wp_ofExcept]
    refine ⟨fun a _ => ?_, fun _ _ => trivial⟩
    refine wp_mono requestGrants_requests ?_ fun _ _ _ => trivial
    rintro grants v ⟨hv, -⟩
    refine ⟨fun capabilities _ => ⟨fun stateHash _ => ?_, fun _ _ => trivial⟩, fun _ _ => trivial⟩
    simp only [manifestFor, wp_bind, wp_get]
    have hmv : v.signedManifests.find id = some m := hv.manifests ▸ hm
    cases hfirst : v.signedManifests.first fun m => m.appInstallation = installation ∧ m.stateHash = stateHash with
    | some row =>
      obtain ⟨i, m'⟩ := row
      have hm' := (Table.first_eq_some hfirst).1
      simp only [wp_pure, wp_ite, wp_bind, wp_modify, wp_require]
      refine ⟨fun _ hi => ?_, fun hno => ⟨fun hready => ⟨fun _ _ hi => ?_, fun _ => trivial⟩, fun _ hi => ?_⟩⟩
      · subst hi
        exact ⟨m'.retried, by simp [State.modifyManifest, hm'], rfl⟩
      · subst hi
        rw [hmv] at hm'
        cases hm'
        exact absurd (.inr hst) hno
      · subst hi
        rw [hmv] at hm'
        cases hm'
        exact absurd (.inr hst) hno
    | none =>
      simp only [wp_pure, wp_ite, wp_bind, wp_modify, wp_require]
      have hne : id ≠ v.signedManifests.nextId := (Table.lt_nextId_of_find hmv).ne
      refine ⟨fun _ hi => absurd hi.symm hne, fun _ => ⟨fun _ => ⟨fun _ _ hi => absurd hi.symm hne, fun _ => trivial⟩,
        fun _ hi => absurd hi.symm hne⟩⟩
  exact hwp.of_ok hrun hid

/-- It is enough that running rows are in the hands of a worker. -/
theorem attended_of_running {held : List Claim} (h : ∀ claim, s.Running claim → claim ∈ held) : Attended s held where
  grants id g hg := by
    cases hst : g.status with
    | pending => exact .inr (.inr (.inr (.inr (.inl (claimable_of_pending hg hst)))))
    | running => exact .inr (.inr (.inr (.inl (h (.grant id) ⟨g, hg, hst⟩))))
    | ready => exact .inl rfl
    | failed => exact .inr (.inl rfl)
    | revoked => exact .inr (.inr (.inl rfl))
  manifests id m hm := by
    cases hst : m.status with
    | pending => exact .inr (.inr (.inr (.inl (manifestClaimable_of_pending hm hst))))
    | running => exact .inr (.inr (.inl (h (.manifest id) ⟨m, hm, hst⟩)))
    | ready => exact .inl rfl
    | failed => exact .inr (.inl rfl)
    | obsolete => exact .inr (.inr (.inr (.inr (manifestRequestable_of_obsolete hm hst))))
  generationGrants id g hg := by
    cases hst : g.status with
    | pending => exact .inr (.inr (.inr (generationClaimable_of_open hg (.inl hst))))
    | running => exact .inr (.inr (.inr (generationClaimable_of_open hg (.inr hst))))
    | ready => exact .inl rfl
    | failed => exact .inr (.inl rfl)
    | revoked => exact .inr (.inr (.inl rfl))

/-! ### The errors of a build -/

/-- The rows behind an installation exist. -/
theorem controlPlaneContext_error {fleet : Fleet} {id : InstallationId} {now : Time} {e : Error}
    (hw : fleet.wellFormed = true) (hi : (fleet.installations.find id).isSome = true)
    (h : controlPlaneContext fleet id now = .error e) : isValueError e = true := by
  obtain ⟨installation, hinstallation⟩ := Option.isSome_iff_exists.mp hi
  rw [Fleet.wellFormed_iff] at hw
  obtain ⟨tablet, htablet⟩ := Option.isSome_iff_exists.mp (hw.1 installation (List.mem_of_getElem? hinstallation))
  obtain ⟨department, hdepartment⟩ := Option.isSome_iff_exists.mp (hw.2 tablet (List.mem_of_getElem? htablet))
  simp only [controlPlaneContext, hinstallation, htablet, hdepartment, found, ok_bind, check_eq_error] at h
  obtain ⟨-, rfl⟩ | ⟨-, h⟩ := h
  · rfl
  · split at h
    · cases h
    · split at h
      · split at h <;> cases h
      · cases h

theorem authorizedPublications_error {id : InstallationId} {now : Time} {e : Error} (hw : s.fleet.wellFormed = true)
    (hi : (s.fleet.installations.find id).isSome = true) (h : authorizedPublications s id now = .error e) :
    isValueError e = true := by
  simp only [authorizedPublications, authorizationContext, bind_eq_error, check_eq_error] at h
  obtain (hc | ⟨context, -, ⟨-, rfl⟩ | ⟨-, h⟩⟩) | ⟨_, -, h⟩ := h
  · exact controlPlaneContext_error hw hi hc
  · rfl
  · split at h
    · cases h
      rfl
    · cases h
  · cases h

theorem manifestPublications_error {id : InstallationId} {now : Time} {e : Error} (hw : s.fleet.wellFormed = true)
    (hi : (s.fleet.installations.find id).isSome = true) (h : manifestPublications s id now = .error e) :
    isValueError e = true := by
  simp only [manifestPublications, bind_eq_error] at h
  obtain hc | ⟨context, -, h⟩ := h
  · exact controlPlaneContext_error hw hi hc
  · split at h
    · cases h
    · rw [check_eq_error] at h
      obtain ⟨-, rfl⟩ | ⟨-, h⟩ := h
      · rfl
      · split at h <;> cases h

theorem isDocumentManifestDelivery_error {p : Publication} {e : Error} (h : isDocumentManifestDelivery p = .error e) :
    isValueError e = true := by
  simp only [isDocumentManifestDelivery, bind_eq_error] at h
  obtain h | ⟨definition, -, h⟩ := h
  · unfold getDatasetDefinition at h
    split at h <;> cases h
    rfl
  · cases h

theorem credential_error {value : Option Bytes} {label : String} {e : Error} (h : credential value label = .error e) :
    isValueError e = true := by
  unfold credential at h
  split at h <;> cases h
  rfl

theorem hpkeSeal_error {worker : DeliveryWorker} {plaintext key : Bytes} {context : HpkeContext} {e : Error}
    (h : hpkeSeal crypto worker plaintext key context = .error e) : isValueError e = true := by
  simp only [hpkeSeal, parseP256PublicKey, HpkeContext.info, bind_eq_error, check_eq_error] at h
  obtain (⟨-, rfl⟩ | ⟨-, ⟨-, rfl⟩ | ⟨-, h⟩⟩) | ⟨_, -, (⟨-, rfl⟩ | ⟨-, ⟨-, rfl⟩ | ⟨-, ⟨-, rfl⟩ | ⟨-, h⟩⟩⟩) | ⟨_, -, h⟩⟩ := h
  all_goals first | rfl | cases h

/-- Apart from a key that does not unwrap, a grant is always ended. -/
theorem wrapContentKey_error {worker : DeliveryWorker} {g : KeyGrant} {now : Time} {e : Error}
    (hw : s.fleet.wellFormed = true) (hi : (s.fleet.installations.find g.appInstallation).isSome = true)
    (hp : (s.db.publications.find g.publication).isSome = true) (hunwrap : ¬UnwrapFails crypto worker s g now)
    (h : wrapContentKey crypto worker s g now = .error e) : isValueError e = true := by
  obtain ⟨p, hp⟩ := Option.isSome_iff_exists.mp hp
  simp only [wrapContentKey, bind_eq_error, Prod.exists, hp, found] at h
  obtain ha | ⟨context, vehicle, publications, ha, hno | ⟨p', hp', h⟩⟩ := h
  · exact authorizedPublications_error hw hi ha
  · cases hno
  · cases hp'
    rw [check_eq_error] at h
    obtain ⟨-, rfl⟩ | ⟨hmem, h⟩ := h
    · rfl
    · simp only [bind_eq_error, check_eq_error] at h
      obtain hkek | ⟨kek, hkek, ⟨-, rfl⟩ | ⟨hlength, ⟨-, rfl⟩ | ⟨hwrapped, h⟩⟩⟩ := h
      · exact credential_error hkek
      · rfl
      · rfl
      · have hsome : worker.kek = some kek := by
          unfold credential at hkek
          split at hkek
          · cases hkek
            assumption
          · cases hkek
        split at h
        · rename_i hnone
          exact absurd ⟨context, vehicle, publications, p, kek, ha, hp, not_not.mp hmem, hsome, not_not.mp hlength,
            hwrapped, hnone⟩ hunwrap
        · exact hpkeSeal_error h

theorem grantOutcome_error {r : Except Error (Bytes × Bytes)} {e : Error} (h : grantOutcome r = .error e) :
    r = .error e ∧ isValueError e = false := by
  unfold grantOutcome at h
  split at h
  · cases h
  · cases h
  · split at h
    · cases h
    · rename_i hno
      cases h
      exact ⟨rfl, by simpa using hno⟩

theorem requestDatasetKeyGrant_error {publication : PublicationId} {installation : InstallationId} {retry : Bool}
    {now : Time} (hw : s.fleet.wellFormed = true) (hi : (s.fleet.installations.find installation).isSome = true) :
    wp (requestDatasetKeyGrant publication installation retry now) (fun _ _ => True) (fun e _ => isValueError e = true) s := by
  simp only [requestDatasetKeyGrant, wp_atomic, wp_bind, wp_get, wp_ofExcept, wp_ensure]
  refine ⟨fun a _ => ⟨fun _ => ?_, fun _ => rfl⟩, fun e he => authorizedPublications_error hw hi he⟩
  cases grantFor s.db.keyGrants publication installation with
  | none => trivial
  | some row => simp

theorem requestGrants_error {installation : InstallationId} {retry : Bool} {now : Time}
    {publications : List (PublicationId × Publication)} (hw : s.fleet.wellFormed = true)
    (hi : (s.fleet.installations.find installation).isSome = true) :
    wp (requestGrants installation retry now publications) (fun _ _ => True) (fun e _ => isValueError e = true) s := by
  induction publications generalizing s with
  | nil => trivial
  | cons e rest ih =>
    simp only [requestGrants, wp_bind, wp_ofExcept, wp_ite]
    refine ⟨fun b hb => ⟨fun _ => ih hw hi, fun _ => ?_⟩, fun e he => isDocumentManifestDelivery_error he⟩
    refine wp_mono (wp_and requestDatasetKeyGrant_requests (requestDatasetKeyGrant_error hw hi)) ?_ fun _ _ h => h.2
    rintro r t ⟨⟨ht, -⟩, -⟩
    exact wp_mono (ih (ht.fleet ▸ hw) (ht.fleet ▸ hi)) (fun _ _ _ => trivial) fun _ _ h => h

theorem upgradeLegacyScopeSignature_error {cfg : Config} {worker : DeliveryWorker} {e : PublicationId × Publication} :
    wp (upgradeLegacyScopeSignature cfg crypto worker e) (fun _ _ => True) (fun e _ => isValueError e = true) s := by
  simp only [upgradeLegacyScopeSignature, wp_atomic, wp_bind, wp_get]
  by_cases hmarked : e.1 ∈ s.legacyUpgrades
  · rw [if_neg (not_not.mpr hmarked)]
    simp only [wp_bind, wp_require, wp_ensure, wp_ofExcept, wp_modify, wp_pure]
    exact ⟨fun ciphertext _ => ⟨fun _ => ⟨fun key _ => ⟨fun _ => trivial, fun _ => rfl⟩, fun e he => credential_error he⟩,
      fun _ => rfl⟩, fun _ => rfl⟩
  · rw [if_pos hmarked]
    trivial

theorem upgradeLegacyScopeSignatures_error {cfg : Config} {worker : DeliveryWorker} {l : List (PublicationId × Publication)} :
    wp (upgradeLegacyScopeSignatures cfg crypto worker l) (fun _ _ => True) (fun e _ => isValueError e = true) s := by
  induction l generalizing s with
  | nil => trivial
  | cons e rest ih =>
    simp only [upgradeLegacyScopeSignatures, wp_bind, wp_ofExcept, wp_ite, wp_pure]
    refine ⟨fun b _ => ⟨fun _ => ?_, fun _ => ?_⟩, fun e he => isDocumentManifestDelivery_error he⟩
    · exact wp_mono ih (fun _ _ _ => trivial) fun _ _ h => h
    · refine wp_mono upgradeLegacyScopeSignature_error ?_ fun _ _ h => h
      rintro e' t -
      exact wp_mono ih (fun _ _ _ => trivial) fun _ _ h => h

theorem signPayload_error {worker : DeliveryWorker} {payload : Payload} {e : Error}
    (h : signPayload crypto worker payload = .error e) : isValueError e = true := by
  simp only [signPayload, bind_eq_error, check_eq_error] at h
  obtain hkey | ⟨key, -, ⟨-, rfl⟩ | ⟨-, ⟨-, rfl⟩ | ⟨-, h⟩⟩⟩ := h
  · exact credential_error hkey
  · rfl
  · rfl
  · cases h

/-! ### What a build relies on -/

/-- Foreign keys name rows, and current publications are complete. -/
structure Buildable (s : State) : Prop where
  wellFormed : s.fleet.wellFormed = true
  grants : ∀ {i g}, s.db.keyGrants.find i = some g → (s.db.publications.find g.publication).isSome = true ∧
    (s.fleet.installations.find g.appInstallation).isSome = true
  manifests : ∀ {i m}, s.signedManifests.find i = some m → (s.fleet.installations.find m.appInstallation).isSome = true
  deliverable : AllDeliverable s
  keyed : GrantsKeyed s

theorem Stepped.publications_isSome (hs : Stepped crypto settings s t) {id : PublicationId}
    (h : (s.db.publications.find id).isSome = true) : (t.db.publications.find id).isSome = true := by
  obtain ⟨p, hp⟩ := Option.isSome_iff_exists.mp h
  cases hs with
  | publication he hi =>
    obtain ⟨q, hq, -⟩ := he.rows hp
    exact Option.isSome_iff_exists.mpr ⟨q, hq⟩
  | served hs =>
    cases hs with
    | upkeep hu =>
      rw [hu.publications]
      exact h
    | endManifest hm hst hu hsigns =>
      obtain ⟨v, hv, hr⟩ := hu
      rw [← hv.upkeep.publications] at hp
      obtain ⟨q, hq, -⟩ := hr.rows hp
      exact Option.isSome_iff_exists.mpr ⟨q, hq⟩
    | claimGrant | endGrant | claimManifest | endGenerationGrant => exact h

/-- The fleet stays well formed, and no installation is dropped. -/
theorem Stepped.fleet (hs : Stepped crypto settings s t) : (s.fleet.wellFormed = true → t.fleet.wellFormed = true) ∧
    s.fleet.installations.nextId ≤ t.fleet.installations.nextId := by
  cases hs with
  | publication he hi => exact ⟨id, le_rfl⟩
  | served hs =>
    cases hs with
    | upkeep hu => exact ⟨hu.wellFormed, hu.installations⟩
    | @endManifest _ _ _ u _ hm hst hu hsigns =>
      obtain ⟨v, hv, hr⟩ := hu
      have hfleet : u.fleet = s.fleet := by
        rw [← hv.fleet, hr.rest]
      change (_ → u.fleet.wellFormed = true) ∧ _ ≤ u.fleet.installations.nextId
      rw [hfleet]
      exact ⟨id, le_rfl⟩
    | claimGrant | endGrant | claimManifest | endGenerationGrant => exact ⟨id, le_rfl⟩

theorem Stepped.installations_isSome (hs : Stepped crypto settings s t) {id : InstallationId}
    (h : (s.fleet.installations.find id).isSome = true) : (t.fleet.installations.find id).isSome = true :=
  isSome_find_of_nextId_le hs.fleet.2 h

/-- A rewrite of a grant under its names. -/
theorem grant_of_modify {grants : Table KeyGrant} {id i : ℕ} {g : KeyGrant} {f : KeyGrant → KeyGrant}
    (hf : ∀ g, (f g).publication = g.publication ∧ (f g).appInstallation = g.appInstallation)
    (hg : (grants.modify id f).find i = some g) : ∃ g₀, grants.find i = some g₀ ∧ g.publication = g₀.publication ∧
      g.appInstallation = g₀.appInstallation := by
  rw [Table.find_modify] at hg
  split at hg
  · obtain ⟨g₀, hg₀, rfl⟩ := Option.map_eq_some_iff.mp hg
    exact ⟨g₀, hg₀, hf g₀⟩
  · exact ⟨g, hg, rfl, rfl⟩

theorem GrantOutcome.store_names (outcome : GrantOutcome) (now : Time) (g : KeyGrant) :
    (outcome.store now g).publication = g.publication ∧ (outcome.store now g).appInstallation = g.appInstallation := by
  cases outcome <;> exact ⟨rfl, rfl⟩

/-- A grant names existing rows, or the rows it named before. -/
theorem Upkeep.grant_names (h : Upkeep s t) {i : ℕ} {g : KeyGrant} (hg : t.db.keyGrants.find i = some g) :
    (t.db.publications.find g.publication).isSome = true ∧ (t.fleet.installations.find g.appInstallation).isSome = true ∨
      ∃ g₀, s.db.keyGrants.find i = some g₀ ∧ g.publication = g₀.publication ∧ g.appInstallation = g₀.appInstallation := by
  rcases h.keyGrants.old hg with ⟨-, hnew⟩ | ⟨g₀, hg₀, rfl | ⟨-, hp, hi⟩⟩
  · exact .inl hnew
  · exact .inr ⟨g, hg₀, rfl, rfl⟩
  · exact .inr ⟨g₀, hg₀, hp, hi⟩

theorem Stepped.grant_names (hs : Stepped crypto settings s t) {i : ℕ} {g : KeyGrant} (hg : t.db.keyGrants.find i = some g) :
    (t.db.publications.find g.publication).isSome = true ∧ (t.fleet.installations.find g.appInstallation).isSome = true ∨
      ∃ g₀, s.db.keyGrants.find i = some g₀ ∧ g.publication = g₀.publication ∧ g.appInstallation = g₀.appInstallation := by
  cases hs with
  | publication he hi =>
    rcases he.keyGrants i with hsame | ⟨g₀, r, hg₀, hrevoked⟩
    · exact .inr ⟨g, hsame ▸ hg, rfl, rfl⟩
    · have hrow : some { g₀ with status := .revoked, revokedAt := r } = some g := hrevoked ▸ hg
      cases hrow
      exact .inr ⟨g₀, hg₀, rfl, rfl⟩
  | served hs =>
    cases hs with
    | upkeep hu => exact hu.grant_names hg
    | claimGrant hg₀ hst => exact .inr (grant_of_modify (f := claimedGrant) (fun _ => ⟨rfl, rfl⟩) hg)
    | @endGrant _ _ now _ outcome hg₀ hst ho => exact .inr (grant_of_modify (outcome.store_names now) hg)
    | @endManifest _ _ _ u _ hm hst hu hsigns =>
      obtain ⟨v, hv, hr⟩ := hu
      have hold : v.db.keyGrants.find i = some g := by
        have hgrants : u.db.keyGrants.find i = some g := hg
        rw [hr.rest] at hgrants
        exact hgrants
      rcases hv.upkeep.grant_names hold with ⟨hp, hi⟩ | hsame
      · obtain ⟨p, hp⟩ := Option.isSome_iff_exists.mp hp
        obtain ⟨q, hq, -⟩ := hr.rows hp
        have hfleet : u.fleet = v.fleet := by rw [hr.rest]
        rw [← hfleet] at hi
        exact .inl ⟨Option.isSome_iff_exists.mpr ⟨q, hq⟩, hi⟩
      · exact .inr hsame
    | claimManifest | endGenerationGrant => exact .inr ⟨g, hg, rfl, rfl⟩

theorem ManifestOutcome.store_appInstallation (outcome : ManifestOutcome) (cfg : Config) (now : Time) (m : SignedManifest) :
    (outcome.store cfg now m).appInstallation = m.appInstallation := by
  cases outcome <;> rfl

theorem manifest_of_modify {manifests : Table SignedManifest} {id i : ℕ} {m : SignedManifest}
    {f : SignedManifest → SignedManifest} (hf : ∀ m, (f m).appInstallation = m.appInstallation)
    (hm : (manifests.modify id f).find i = some m) :
    ∃ m₀, manifests.find i = some m₀ ∧ m.appInstallation = m₀.appInstallation := by
  rw [Table.find_modify] at hm
  split at hm
  · obtain ⟨m₀, hm₀, rfl⟩ := Option.map_eq_some_iff.mp hm
    exact ⟨m₀, hm₀, hf m₀⟩
  · exact ⟨m, hm, rfl⟩

theorem Stepped.manifest_installation (hs : Stepped crypto settings s t) {i : ℕ} {m : SignedManifest}
    (hm : t.signedManifests.find i = some m) : (t.fleet.installations.find m.appInstallation).isSome = true ∨
      ∃ m₀, s.signedManifests.find i = some m₀ ∧ m.appInstallation = m₀.appInstallation := by
  cases hs with
  | publication he hi => exact .inr ⟨m, hm, rfl⟩
  | served hs =>
    cases hs with
    | upkeep hu =>
      rcases hu.manifests.old hm with ⟨-, hnew⟩ | ⟨m₀, hm₀, rfl | ⟨-, hi, -⟩⟩
      · exact .inl hnew
      · exact .inr ⟨m, hm₀, rfl⟩
      · exact .inr ⟨m₀, hm₀, hi⟩
    | claimManifest hm₀ hst => exact .inr (manifest_of_modify (f := SignedManifest.claimed) (fun _ => rfl) hm)
    | @endManifest _ now _ u outcome hm₀ hst hu hsigns =>
      obtain ⟨m₁, hm₁, hinst⟩ := manifest_of_modify (outcome.store_appInstallation settings.publications now) hm
      exact .inr ⟨m₁, hu.signedManifests ▸ hm₁, hinst⟩
    | claimGrant | endGrant | endGenerationGrant => exact .inr ⟨m, hm, rfl⟩

theorem Stepped.buildable (hsign : Signing crypto) (hs : Stepped crypto settings s t) (h : Buildable s) : Buildable t where
  wellFormed := hs.fleet.1 h.wellFormed
  grants hg := by
    rcases hs.grant_names hg with hnew | ⟨g₀, hg₀, hp, hi⟩
    · exact hnew
    · obtain ⟨hpub, hinst⟩ := h.grants hg₀
      rw [hp, hi]
      exact ⟨hs.publications_isSome hpub, hs.installations_isSome hinst⟩
  manifests hm := by
    rcases hs.manifest_installation hm with hnew | ⟨m₀, hm₀, hi⟩
    · exact hnew
    · rw [hi]
      exact hs.installations_isSome (h.manifests hm₀)
  deliverable := hs.allDeliverable hsign h.deliverable
  keyed := hs.grantsKeyed h.keyed

theorem Deployed.buildable (h : Deployed s) : Buildable s where
  wellFormed := h.wellFormed
  grants hg := by
    rw [h.keyGrants] at hg
    cases hg
  manifests hm := by
    rw [h.signedManifests] at hm
    cases hm
  deliverable := h.deliverable
  keyed hg := by
    rw [h.keyGrants] at hg
    cases hg

theorem delivery_buildable {hash : ManifestState → String} (hsign : Signing crypto)
    (h : (delivery crypto hash).Reachable s) : Buildable s :=
  delivery_invariant (I := Buildable) (fun _ hd => Deployed.buildable hd)
    (fun _ _ _ _ _ hI hs => hs.buildable hsign hI) h

/-! ### A build that does not break ends its row -/

/-- Apart from a refused address, every error of a manifest build is handled. -/
theorem tryManifest_error {worker : DeliveryWorker} {m : SignedManifest} {now clock : Time} (hsign : Signing crypto)
    (hi : Publications.Inv s.db.core) (hb : Buildable s) (hinst : (s.fleet.installations.find m.appInstallation).isSome = true)
    (hurl : ¬CapabilitiesRefused settings s m now clock) :
    wp (tryManifest settings crypto worker m now clock) (fun _ _ => True) (fun e _ => isValueError e = true) s := by
  simp only [tryManifest, wp_bind, wp_get, wp_ofExcept]
  refine ⟨fun a ha => ?_, fun e he => manifestPublications_error hb.wellFormed hinst he⟩
  obtain ⟨context, publications⟩ := a
  have hgrants : wp (requestGrants m.appInstallation false clock publications)
      (fun grants v => Requests s v ∧ GrantsFor s v m.appInstallation publications grants ∧
        settings.validWebUrl s.fleet.rescueGuidesUrl = true) (fun e _ => isValueError e = true) s := by
    refine wp_of_forall (fun grants v hrun => ?_) fun e v hrun => (requestGrants_error hb.wellFormed hinst).of_error hrun
    obtain ⟨hv, hg⟩ := requestGrants_requests.of_ok hrun
    refine ⟨hv, hg, ?_⟩
    by_contra hno
    exact hurl ⟨by simpa using hno, context, publications, grants, v, ha, hrun⟩
  refine wp_mono hgrants ?_ fun _ _ h => h
  rintro grants v ⟨hv, hg, hvalid⟩
  have hrenders := renders hsign hi hb.deliverable hb.keyed ha
  refine ⟨fun capabilities _ => ⟨fun stateHash _ => ?_, fun e he => ?_⟩, fun e he => ?_⟩
  · rw [wp_ite]
    refine ⟨fun _ => trivial, fun _ => ?_⟩
    rw [wp_ite]
    refine ⟨fun _ => trivial, fun _ => ?_⟩
    rw [wp_ite]
    refine ⟨fun _ => trivial, fun _ => ?_⟩
    rw [wp_ite]
    refine ⟨fun _ => trivial, fun hready => ?_⟩
    have hallready : ∀ r ∈ grants, r.2.status = .ready := by
      intro r hr
      by_contra hne
      exact hready (List.any_eq_true.mpr ⟨r, hr, by simpa using hne⟩)
    obtain ⟨hnd, hrows⟩ := manifestPublications_rows ha
    rw [← hv.upkeep.publications] at hrows
    simp only [wp_bind, wp_ofExcept, wp_pure]
    refine wp_mono (wp_and (upgradeLegacyScopeSignatures_spec hnd hrows) upgradeLegacyScopeSignatures_error) ?_
      fun _ _ h => h.2
    rintro publications' t ⟨⟨ht, -, hall⟩, -⟩
    have hresigned : List.Forall₂ (fun (e e' : PublicationId × Publication) =>
        e'.1 = e.1 ∧ (e'.2 = e.2 ∨ Resigned crypto e.2 e'.2)) publications publications' := by
      refine ((List.forall₂_and_left (p := fun e => e ∈ publications) _ _).mpr ⟨fun e he => he, hall⟩).imp ?_
      rintro e e' ⟨he, hid, hrow⟩
      obtain ⟨q, hq, hpq⟩ := ht.rows (hrows e he)
      rw [hrow] at hq
      cases hq
      exact ⟨hid, hpq.imp (fun h => h) fun h => h.2.2⟩
    refine ⟨fun payload _ => ⟨fun signature _ => trivial, fun e he => signPayload_error he⟩, fun e he => ?_⟩
    obtain ⟨payload, hpayload, -⟩ := hrenders.payload hv hg hallready hresigned settings m.generation now capabilities
    rw [hpayload] at he
    cases he
  · obtain ⟨stateHash, hhash⟩ := hrenders.hash settings m.generation capabilities
    rw [hhash] at he
    cases he
  · unfold manifestCapabilities at he
    rw [if_pos hvalid] at he
    cases he

theorem buildClaimedSignedManifest_returns {worker : DeliveryWorker} {id : ℕ} {m : SignedManifest} {now clock : Time}
    (hsign : Signing crypto) (hi : Publications.Inv s.db.core) (hb : Buildable s)
    (hm : s.signedManifests.find id = some m) (hurl : ¬CapabilitiesRefused settings s m now clock) :
    wp (buildClaimedSignedManifest settings crypto worker id now clock) (fun _ _ => True) (fun _ _ => False) s := by
  simp only [buildClaimedSignedManifest, wp_atomic, wp_bind, wp_get, wp_require]
  refine ⟨fun m' hm' => ?_, fun hn => ?_⟩
  · rw [hm] at hm'
    cases hm'
    by_cases hrun : m.status = .running
    · rw [if_neg (not_not.mpr hrun)]
      simp only [wp_bind, wp_handle, wp_modify]
      refine wp_mono (tryManifest_error hsign hi hb (hb.manifests hm) hurl) (fun _ _ _ => trivial) fun e t he =>
        ⟨fun y hy => ?_, fun hn => ?_⟩
      · obtain ⟨outcome, rfl, -⟩ := manifestFailure_spec hy
        trivial
      · unfold manifestFailure at hn
        split at hn
        · cases hn
        · rw [if_pos he] at hn
          cases hn
    · rw [if_pos hrun]
      trivial
  · rw [hm] at hn
    cases hn

theorem GrantOutcome.store_status (outcome : GrantOutcome) (now : Time) (g : KeyGrant) :
    (outcome.store now g).status ≠ .running := by
  cases outcome <;> simp [GrantOutcome.store]

theorem ManifestOutcome.store_status (outcome : ManifestOutcome) (cfg : Config) (now : Time) (m : SignedManifest) :
    (outcome.store cfg now m).status ≠ .running := by
  cases outcome <;> simp [ManifestOutcome.store]

/-- A build that does not break ends the row it works on. -/
theorem Action.ends (hsign : Signing crypto) (hi : Publications.Inv s.db.core) (hb : Buildable s) {a : Action} {claim : Claim}
    (hbuild : a.builds = some claim) (hrun : s.Running claim) (hbreaks : ¬Breaks crypto settings s a) :
    ¬(exec (a.run crypto settings) s).Running claim := by
  cases a with
  | buildClaimedDatasetKeyGrant worker id now =>
    cases hbuild
    obtain ⟨g, hg, hst⟩ := hrun
    refine exec_of_wp (P := fun t : State => ¬t.Running (.grant id)) (wp_mono buildClaimedDatasetKeyGrant_spec ?_ ?_)
    · rintro _ t ⟨g', hg', ⟨hno, -⟩ | ⟨-, outcome, -, rfl⟩⟩
      · rw [hg] at hg'
        cases hg'
        exact absurd hst hno
      · rintro ⟨g'', hg'', hst''⟩
        simp only [State.modifyKeyGrant, Table.find_modify, if_true, hg', Option.map_some, Option.some.injEq] at hg''
        rw [← hg''] at hst''
        exact outcome.store_status now g' hst''
    · rintro e t ⟨-, he⟩
      obtain ⟨herror, hvalue⟩ := grantOutcome_error (he g hg).2
      have hhandled := wrapContentKey_error hb.wellFormed (hb.grants hg).2 (hb.grants hg).1
        (fun hfails => hbreaks ⟨g, hg, hfails⟩) herror
      rw [hhandled] at hvalue
      cases hvalue
  | buildClaimedSignedManifest worker id now clock =>
    cases hbuild
    obtain ⟨m, hm, hst⟩ := hrun
    have hreturns : wp (Delivery.buildClaimedSignedManifest settings crypto worker id now clock) (fun _ _ => True)
        (fun _ _ => False) s :=
      buildClaimedSignedManifest_returns hsign hi hb hm fun hrefused => hbreaks ⟨m, hm, hrefused⟩
    refine exec_of_wp (P := fun t : State => ¬t.Running (.manifest id))
      (wp_mono (wp_and buildClaimedSignedManifest_spec hreturns) ?_ fun _ _ h => h.2.elim)
    rintro _ t ⟨⟨m', hm', ⟨hno, -⟩ | ⟨-, u, outcome, hu, rfl, -⟩⟩, -⟩
    · rw [hm] at hm'
      cases hm'
      exact absurd hst hno
    · rintro ⟨m'', hm'', hst''⟩
      simp only [State.modifyManifest, Table.find_modify, if_true, hu.signedManifests, hm', Option.map_some,
        Option.some.injEq] at hm''
      rw [← hm''] at hst''
      exact outcome.store_status _ now m' hst''
  | _ => cases hbuild

/-! ### Only a claim makes a row run -/

theorem Upkeep.running (h : Upkeep s t) {claim : Claim} (hrun : t.Running claim) : s.Running claim := by
  cases claim with
  | grant id =>
    obtain ⟨g, hg, hst⟩ := hrun
    rcases h.keyGrants.old hg with ⟨hnew | hnew, -⟩ | ⟨g₀, hg₀, rfl | ⟨hreset | hreset, -⟩⟩
    · rw [hnew] at hst
      cases hst
    · rw [hnew] at hst
      cases hst
    · exact ⟨g, hg₀, hst⟩
    · rw [hreset] at hst
      cases hst
    · rw [hreset] at hst
      cases hst
  | manifest id =>
    obtain ⟨m, hm, hst⟩ := hrun
    rcases h.manifests.old hm with ⟨hnew | hnew, -⟩ | ⟨m₀, hm₀, rfl | ⟨hreset | hreset, -⟩⟩
    · rw [hnew] at hst
      cases hst
    · rw [hnew] at hst
      cases hst
    · exact ⟨m, hm₀, hst⟩
    · rw [hreset] at hst
      cases hst
    · rw [hreset] at hst
      cases hst

theorem running_publication {db : Db} (he : Effect s.db db) {claim : Claim} (hrun : ({ s with db := db } : State).Running claim) :
    s.Running claim := by
  cases claim with
  | grant id =>
    obtain ⟨g, hg, hst⟩ := hrun
    rcases he.keyGrants id with hsame | ⟨g₀, r, -, hrevoked⟩
    · exact ⟨g, hsame ▸ hg, hst⟩
    · have hrow : some { g₀ with status := .revoked, revokedAt := r } = some g := hrevoked ▸ hg
      cases hrow
      cases hst
  | manifest id => exact hrun

/-- A running row of a rewritten grant table. -/
theorem running_modifyKeyGrant {id : ℕ} {f : KeyGrant → KeyGrant} {claim : Claim}
    (hrun : (s.modifyKeyGrant id f).Running claim) : s.Running claim ∨
      claim = .grant id ∧ ∃ g, s.db.keyGrants.find id = some g ∧ (f g).status = .running := by
  cases claim with
  | grant i =>
    obtain ⟨g, hg, hst⟩ := hrun
    simp only [State.modifyKeyGrant, Table.find_modify] at hg
    split at hg
    · rename_i hid
      obtain ⟨g₀, hg₀, rfl⟩ := Option.map_eq_some_iff.mp hg
      exact .inr ⟨by rw [hid], g₀, hid ▸ hg₀, hst⟩
    · exact .inl ⟨g, hg, hst⟩
  | manifest i => exact .inl hrun

theorem running_modifyManifest {id : ℕ} {f : SignedManifest → SignedManifest} {claim : Claim}
    (hrun : (s.modifyManifest id f).Running claim) : s.Running claim ∨
      claim = .manifest id ∧ ∃ m, s.signedManifests.find id = some m ∧ (f m).status = .running := by
  cases claim with
  | grant i => exact .inl hrun
  | manifest i =>
    obtain ⟨m, hm, hst⟩ := hrun
    simp only [State.modifyManifest, Table.find_modify] at hm
    split at hm
    · rename_i hid
      obtain ⟨m₀, hm₀, rfl⟩ := Option.map_eq_some_iff.mp hm
      exact .inr ⟨by rw [hid], m₀, hid ▸ hm₀, hst⟩
    · exact .inl ⟨m, hm, hst⟩

theorem Prepares.running (h : Prepares crypto s t) {claim : Claim} (hrun : t.Running claim) : s.Running claim := by
  obtain ⟨v, hv, hr⟩ := h
  refine hv.upkeep.running ?_
  cases claim <;> rw [hr.rest] at hrun <;> exact hrun

/-- A row runs after an action because it ran before, or because the action claimed it. -/
theorem Action.running (a : Action) (hi : Publications.Inv s.db.core) {claim : Claim}
    (hrun : (exec (a.run crypto settings) s).Running claim) : s.Running claim ∨ a.builds = none ∧ a.takes s = some claim := by
  have hupkeep : ∀ {t : State}, Upkeep s t → t.Running claim → s.Running claim ∨ a.builds = none ∧ a.takes s = some claim :=
    fun hu hrun => .inl (hu.running hrun)
  cases a with
  | publication env call =>
    have he : Effect s.db (exec (call.run settings.publications env) s.db) := call.effect hi
    exact .inl (running_publication he hrun)
  | fleet call => exact hupkeep call.upkeep hrun
  | requestDatasetKeyGrant id installation retryFailed now =>
    refine hupkeep (exec_drop (wp_mono requestDatasetKeyGrant_requests (fun _ t ht => ht.1.upkeep) ?_)) hrun
    rintro e t rfl
    exact .refl t
  | requestManifest installation generation now clock =>
    refine hupkeep (exec_drop (wp_mono requestManifest_spec (fun _ t ht => ht.1) ?_)) hrun
    rintro e t rfl
    exact .refl t
  | requestGenerationKeyGrant id installation now =>
    exact hupkeep (exec_drop (wp_mono requestGenerationKeyGrant_upkeep (fun _ t ht => ht) fun _ t ht => ht)) hrun
  | claimNextDatasetKeyGrant locked =>
    cases hclaim : Delivery.claimNextDatasetKeyGrant locked s with
    | mk r t =>
      have hexec : exec ((Action.claimNextDatasetKeyGrant locked).run crypto settings) s = t := by
        rw [Action.run, Tx.exec_drop, exec, hclaim]
      rw [hexec] at hrun
      cases r with
      | error e => exact (claimNextDatasetKeyGrant_spec.of_error hclaim).elim
      | ok r =>
        rcases claimNextDatasetKeyGrant_spec.of_ok hclaim with ⟨-, rfl⟩ | ⟨id, g, rfl, hg, hst, rfl⟩
        · exact .inl hrun
        · rcases running_modifyKeyGrant hrun with hrun | ⟨rfl, -⟩
          · exact .inl hrun
          · exact .inr ⟨rfl, by rw [Action.takes, hclaim]⟩
  | buildClaimedDatasetKeyGrant worker id now =>
    refine exec_of_wp (P := fun t : State => t.Running claim → _) (wp_mono buildClaimedDatasetKeyGrant_spec ?_ ?_) hrun
    · rintro _ t ⟨g, hg, ⟨-, rfl⟩ | ⟨-, outcome, -, rfl⟩⟩ hrun
      · exact .inl hrun
      · rcases running_modifyKeyGrant hrun with hrun | ⟨-, g', -, hst⟩
        · exact .inl hrun
        · exact absurd hst (outcome.store_status now g')
    · rintro e t ⟨rfl, -⟩ hrun
      exact .inl hrun
  | claimNextSignedManifest excludeIds locked =>
    cases hclaim : Delivery.claimNextSignedManifest excludeIds locked s with
    | mk r t =>
      have hexec : exec ((Action.claimNextSignedManifest excludeIds locked).run crypto settings) s = t := by
        rw [Action.run, Tx.exec_drop, exec, hclaim]
      rw [hexec] at hrun
      cases r with
      | error e => exact (claimNextSignedManifest_spec.of_error hclaim).elim
      | ok r =>
        rcases claimNextSignedManifest_spec.of_ok hclaim with ⟨-, rfl⟩ | ⟨id, m, rfl, hm, hst, rfl⟩
        · exact .inl hrun
        · rcases running_modifyManifest hrun with hrun | ⟨rfl, -⟩
          · exact .inl hrun
          · exact .inr ⟨rfl, by rw [Action.takes, hclaim]⟩
  | buildClaimedSignedManifest worker id now clock =>
    refine exec_of_wp (P := fun t : State => t.Running claim → _) (wp_mono buildClaimedSignedManifest_spec ?_ ?_) hrun
    · rintro _ t ⟨m, hm, ⟨-, rfl⟩ | ⟨-, u, outcome, hu, rfl, -⟩⟩ hrun
      · exact .inl hrun
      · rcases running_modifyManifest hrun with hrun | ⟨-, m', -, hst⟩
        · exact .inl (hu.running hrun)
        · exact absurd hst (outcome.store_status _ now m')
    · rintro e t rfl hrun
      exact .inl hrun
  | processNextGenerationKeyGrant worker locked now clock =>
    refine exec_drop (P := fun t : State => t.Running claim → _) (wp_mono processNextGenerationKeyGrant_spec ?_ ?_) hrun
    · rintro _ t (⟨-, rfl⟩ | ⟨id, g, outcome, -, -, -, rfl, -⟩) hrun
      · exact .inl hrun
      · cases claim <;> exact .inl hrun
    · rintro e t rfl hrun
      exact .inl hrun

/-! ### Runs -/

/-- Every running row is in the hands of a worker after a step that loses no claim. -/
theorem held_step {held held' : List Claim} {a : Settings × Work} {hash : ManifestState → String} (hsign : Signing crypto)
    (hi : Publications.Inv s.db.core) (hb : Buildable s) (hheld : ∀ claim, s.Running claim → claim ∈ held)
    (hkeeps : KeepsClaims crypto (s, held) a) (hstep : (staffed crypto hash).step (s, held) a (t, held')) :
    ∀ claim, t.Running claim → claim ∈ held' := by
  obtain ⟨settings, work⟩ := a
  cases work with
  | crash claim =>
    obtain ⟨-, ht, hheld'⟩ := hstep
    obtain rfl : t = s := ht
    obtain rfl : held' = held.erase claim := hheld'
    intro other hrun
    by_cases hother : other = claim
    · rw [hother] at hrun ⊢
      exact hkeeps hrun
    · exact (List.mem_erase_of_ne hother).mpr (hheld other hrun)
  | act action =>
    obtain ⟨⟨-, ht⟩, -, hheld'⟩ := hstep
    obtain rfl : t = exec (action.run crypto settings) s := ht
    obtain rfl : held' = heldAfter s action held := hheld'
    intro claim hrun
    unfold heldAfter
    cases hbuild : action.builds with
    | none =>
      rcases action.running hi hrun with hbefore | ⟨-, htakes⟩
      · exact List.mem_append_right _ (hheld claim hbefore)
      · exact List.mem_append_left _ (by rw [htakes]; exact List.mem_singleton_self claim)
    | some built =>
      have hbefore : s.Running claim := by
        rcases action.running hi hrun with hbefore | ⟨hnone, -⟩
        · exact hbefore
        · rw [hbuild] at hnone
          cases hnone
      by_cases hother : claim = built
      · rw [hother] at hrun hbefore ⊢
        rcases hkeeps built hbuild hbefore with hkept | hbreaks
        · exact hkept
        · exact absurd hrun (action.ends hsign hi hb hbuild hbefore hbreaks)
      · exact (List.mem_erase_of_ne hother).mpr (hheld claim hbefore)

/-- In every run whose steps lose no claim, no row is lost. -/
theorem rows_attended {hash : ManifestState → String} {held : List Claim} (hsign : Signing crypto)
    (h : (staffed crypto hash).ReachableBy (KeepsClaims crypto) (s, held)) : Attended s held := by
  have hpair : (delivery crypto hash).Reachable s ∧ ∀ claim, s.Running claim → claim ∈ held := by
    refine h.invariant (I := fun w => (delivery crypto hash).Reachable w.1 ∧ ∀ claim, w.1.Running claim → claim ∈ w.2) ?_ ?_
    · rintro ⟨s, held⟩ ⟨hd, -⟩
      refine ⟨.init hd, fun claim hrun => ?_⟩
      cases claim with
      | grant id =>
        obtain ⟨g, hg, -⟩ := hrun
        rw [Deployed.keyGrants hd] at hg
        cases hg
      | manifest id =>
        obtain ⟨m, hm, -⟩ := hrun
        rw [Deployed.signedManifests hd] at hm
        cases hm
    · rintro ⟨s, held⟩ a ⟨t, held'⟩ - ⟨hreach, hheld⟩ hkeeps hstep
      refine ⟨?_, held_step hsign (delivery_inv hreach) (delivery_buildable hsign hreach) hheld hkeeps hstep⟩
      obtain ⟨settings, work⟩ := a
      cases work with
      | crash claim =>
        obtain rfl : t = s := hstep.2.1
        exact hreach
      | act action => exact hreach.next hstep.1
  exact attended_of_running hpair.2

/-! ### A grant whose worker does not come back -/

/-- Transactions one after the other, each by its own worker. -/
def staffedRun (w : State × List Claim) (actions : List Action) : State × List Claim :=
  actions.foldl (fun w a => (exec (a.run sampleCrypto sampleSettings) w.1, heldAfter w.1 a w.2)) w

theorem reachableBy_staffedRun {C : State × List Claim → Settings × Work → Prop} {w : State × List Claim}
    (h : (staffed sampleCrypto sampleSettings.stateHash).ReachableBy C w) (actions : List Action)
    (hC : ∀ a ∈ actions, a.builds = none ∧ ∀ w, C w (sampleSettings, .act a)) :
    (staffed sampleCrypto sampleSettings.stateHash).ReachableBy C (staffedRun w actions) := by
  induction actions generalizing w with
  | nil => exact h
  | cons a rest ih =>
    obtain ⟨hnone, ha⟩ := hC a List.mem_cons_self
    have hstep : (staffed sampleCrypto sampleSettings.stateHash).step w (sampleSettings, .act a)
        (exec (a.run sampleCrypto sampleSettings) w.1, heldAfter w.1 a w.2) := by
      refine ⟨⟨rfl, rfl⟩, fun claim hbuild => ?_, rfl⟩
      rw [hnone] at hbuild
      cases hbuild
    exact ih (h.next (ha w) hstep) fun b hb => hC b (List.mem_cons_of_mem a hb)

/-- A tablet asks for its first manifest, and a worker takes the grant of its phonebook. -/
def claimedPhonebook : State × List Claim :=
  staffedRun ({ fleet := sampleFleet }, [])
    (publishPhonebook 0 1 0 ++ [.requestManifest 0 1 1 1, .claimNextDatasetKeyGrant []])

theorem claimedPhonebook_reachable {C : State × List Claim → Settings × Work → Prop}
    (hC : ∀ a, a.builds = none → ∀ w, C w (sampleSettings, .act a)) :
    (staffed sampleCrypto sampleSettings.stateHash).ReachableBy C claimedPhonebook := by
  refine reachableBy_staffedRun (.init ⟨deployed_sample, rfl⟩) _ fun a ha => ?_
  have hnone : a.builds = none := by
    simp only [publishPhonebook, List.mem_append, List.mem_cons, List.not_mem_nil, or_false] at ha
    rcases ha with (rfl | rfl | rfl) | rfl | rfl <;> rfl
  exact ⟨hnone, hC a hnone⟩

theorem claimedPhonebook_held : claimedPhonebook.2 = [.grant 0] := by decide +kernel

/-- The only claim in hand is built. -/
theorem build_step {w : State × List Claim} {t : State} {a : Action} {claim : Claim} (hheld : w.2 = [claim])
    (hbuild : a.builds = some claim) (ht : exec (a.run crypto settings) w.1 = t) :
    (staffed crypto settings.stateHash).step w (settings, .act a) (t, []) := by
  refine ⟨⟨rfl, ht.symm⟩, fun claim' hbuild' => ?_, ?_⟩
  · rw [hbuild] at hbuild'
    cases hbuild'
    rw [hheld]
    exact List.mem_cons_self
  · rw [heldAfter, hbuild, hheld]
    simp

/-- The only claim in hand is lost. -/
theorem crash_step {w : State × List Claim} {claim : Claim} (hheld : w.2 = [claim]) :
    (staffed crypto settings.stateHash).step w (settings, .crash claim) (w.1, []) := by
  refine ⟨?_, rfl, ?_⟩
  · rw [hheld]
    exact List.mem_cons_self
  · rw [hheld]
    simp

/-- The worker wraps the key. -/
theorem builtGrant_attended :
    (exec ((Action.buildClaimedDatasetKeyGrant sampleWorker 0 1).run sampleCrypto sampleSettings)
        claimedPhonebook.1).db.keyGrants.rows.map (·.status) = [.ready] ∧
      Attended (exec ((Action.buildClaimedDatasetKeyGrant sampleWorker 0 1).run sampleCrypto sampleSettings)
        claimedPhonebook.1) [] := by
  have hsign : Signing sampleCrypto := fun _ _ => by simp [sampleCrypto]
  have hclaimed : (staffed sampleCrypto sampleSettings.stateHash).ReachableBy (KeepsClaims sampleCrypto) claimedPhonebook :=
    claimedPhonebook_reachable fun a hnone w claim hbuild => by
      rw [hnone] at hbuild
      cases hbuild
  refine ⟨by decide +kernel, rows_attended hsign (hclaimed.next ?_ (build_step claimedPhonebook_held rfl rfl))⟩
  intro claim hbuild _
  cases hbuild
  refine .inr ?_
  rintro ⟨g, hg, context, vehicle, publications, p, kek, -, hp, -, hkek, -, -, hunwrap⟩
  cases hkek
  have hwrapped : (claimedPhonebook.1.db.keyGrants.find 0).bind (fun g =>
      (claimedPhonebook.1.db.publications.find g.publication).map (·.artifact.wrappedCek)) =
      some (List.replicate 40 7) := by decide +kernel
  rw [hg, Option.bind_some, hp, Option.map_some, Option.some.injEq] at hwrapped
  rw [hwrapped] at hunwrap
  revert hunwrap
  decide +kernel

/-- A worker with another key encryption key. -/
def otherWorker : DeliveryWorker := { sampleWorker with kek := some (List.replicate 32 8) }

theorem claimedPhonebook_lost : ¬Attended claimedPhonebook.1 [] := by
  intro h
  have hrow : (claimedPhonebook.1.db.keyGrants.find 0).map (·.status) = some .running := by decide +kernel
  obtain ⟨g, hg, hst⟩ := Option.map_eq_some_iff.mp hrow
  rcases h.grants 0 g hg with hready | hfailed | hrevoked | hheld | ⟨locked, hclaim⟩ | hrequest
  · rw [hst] at hready
    cases hready
  · rw [hst] at hfailed
    cases hfailed
  · rw [hst] at hrevoked
    cases hrevoked
  · cases hheld
  · cases hrun : claimNextDatasetKeyGrant locked claimedPhonebook.1 with
    | mk r t =>
      rw [hrun] at hclaim
      obtain rfl : r = .ok (some 0) := hclaim
      rcases claimNextDatasetKeyGrant_spec.of_ok hrun with ⟨hno, -⟩ | ⟨id, g', hid, hg', hpending, -⟩
      · cases hno
      · cases hid
        rw [hg] at hg'
        cases hg'
        rw [hst] at hpending
        cases hpending
  · have hreturns : (requestDatasetKeyGrant 0 0 true 2 claimedPhonebook.1).1.map (fun r => (r.1, r.2.status)) =
        .ok (0, .running) := by decide +kernel
    cases hrun : requestDatasetKeyGrant 0 0 true 2 claimedPhonebook.1 with
    | mk r t =>
      rw [hrun] at hreturns
      cases r with
      | error e => cases hreturns
      | ok r =>
        obtain ⟨hid, hrunning⟩ := Prod.mk.inj (Except.ok.inj hreturns)
        have hpending := hrequest 0 0 2 r t hrun hid
        rw [hrunning] at hpending
        cases hpending

/-- The grant stays running for good when its worker crashes, or when its key does not unwrap. -/
theorem claimedGrant_lost : (staffed sampleCrypto sampleSettings.stateHash).Reachable claimedPhonebook ∧
    ∀ work ∈ [Work.crash (.grant 0), .act (.buildClaimedDatasetKeyGrant otherWorker 0 2)], ∃ w,
      (staffed sampleCrypto sampleSettings.stateHash).step claimedPhonebook (sampleSettings, work) w ∧ ¬Attended w.1 w.2 := by
  have hclaimed : (staffed sampleCrypto sampleSettings.stateHash).ReachableBy (fun _ _ => True) claimedPhonebook := by
    apply claimedPhonebook_reachable
    intros
    trivial
  refine ⟨hclaimed.reachable, fun work hwork => ?_⟩
  refine ⟨(claimedPhonebook.1, []), ?_, ?_⟩
  swap
  · dsimp only
    exact claimedPhonebook_lost
  rcases List.mem_cons.mp hwork with rfl | hwork
  · exact crash_step claimedPhonebook_held
  · obtain rfl := List.mem_singleton.mp hwork
    have hraise : exec ((Action.buildClaimedDatasetKeyGrant otherWorker 0 2).run sampleCrypto sampleSettings)
        claimedPhonebook.1 = claimedPhonebook.1 := by decide +kernel
    exact build_step claimedPhonebook_held rfl hraise

end FireDash.Delivery
