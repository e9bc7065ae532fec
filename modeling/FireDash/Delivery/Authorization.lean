import FireDash.Delivery.Manifests
import FireDash.Lib.Rank

/-! The authorization boundary of document generations, and tenant isolation: what an
installation is shown does not depend on the rows of other tenants. -/
namespace FireDash.Delivery

open Publications

/-- The installed application is one the API still supports. -/
def checkAppVersion (fleet : Fleet) (installation : AppInstallation) : Except Error Unit :=
  match fleet.minimumSupportedAppVersion, parseAppVersion installation.appVersion with
  | .ok (some minimum), .ok version =>
    if version.lt minimum then .error (.manifestError "Installation app version is no longer supported.")
    else .ok ()
  | .ok none, .ok _ => .ok ()
  | _, _ => .error (.manifestError "Installation app version is invalid.")

/-- A superseded file-library generation whose scope is still delivered. -/
def retainedLibrary (scope : Scope) (publication : Publication) (publications : List (PublicationId × Publication)) :
    Bool :=
  publication.key.target.datasetTypeCode.isFileDataset ∧ publication.status = .superseded ∧
    publication.artifactReady ∧ publications.any fun candidate =>
      candidate.2.scopeState = publication.scopeState ∧ scope.currentPublishedPublication = some candidate.1

/-- Authorize persisted generations against current tablet scope and entitlements. -/
def authorizedGeneration (s : State) (id : PublicationId) (installation : InstallationId) (now : Time) :
    Except Error Context := do
  let publication ← found (s.db.publications.find id)
  let scope ← found (s.db.scopes.find publication.scopeState)
  let (context, vehicle, publications) ← authorizedPublications s installation now
  checkAppVersion s.fleet context.installation
  if publication.schemaVersion ≠ 2 ∨ ¬publication.key.target.datasetTypeCode.isDocumentDataset then
    throw (.manifestError "Publication is not an eligible document generation.")
  if publication.key.target.department ≠ some context.tablet.department then
    throw (.manifestError "Installation is not authorized for this publication.")
  if ∃ station ∈ publication.key.target.station, station.id ≠ vehicle.station then
    throw (.manifestError "Installation is not authorized for this station.")
  -- A guessed generation URL must not bypass a hidden, disabled or replaced dataset.
  if (id ∉ publications.map Prod.fst ∨ scope.currentPublishedPublication ≠ some id) ∧
      ¬retainedLibrary scope publication publications then
    throw (.manifestError "Installation is not authorized for this publication.")
  return context

/-! ### What an installation may see -/

/-- A system dataset type distributed to a department. -/
def systemExposed (fleet : Fleet) (department : DepartmentId) (code : DatasetTypeCode) : Bool :=
  match getDatasetDefinition code with
  | .ok definition => definition.systemExposure ∧ fleet.isFeatureEnabled department definition.featureCode
  | .error _ => false

/-- The key belongs to another department, to a station other than that of the assigned
vehicle, or to a system dataset that is not exposed to the department. -/
def Foreign (fleet : Fleet) (context : Context) (key : ScopeKey) : Prop :=
  (∃ d, key.target.department = some d ∧ d ≠ context.tablet.department) ∨
    (∃ station, key.target.station = some station ∧ ∀ v, context.vehicle = some v → station.id ≠ v.2.station) ∨
    key.scopeType = .system ∧ key.target.department = none ∧
      systemExposed fleet context.tablet.department key.target.datasetTypeCode = false

/-- The key is that of an exposed system dataset, of the department of the installation, or
of the station of its vehicle. -/
def Concerns (fleet : Fleet) (context : Context) (key : ScopeKey) : Prop :=
  match key.scopeType with
  | .system => systemExposed fleet context.tablet.department key.target.datasetTypeCode = true ∧
      key.target.department = none ∧ key.target.station = none
  | .department => key.target.department = some context.tablet.department ∧ key.target.station = none
  | .station => key.target.department = some context.tablet.department ∧
      ∃ station v, key.target.station = some station ∧ context.vehicle = some v ∧ station.id = v.2.station

/-- The states differ at most in rows that are foreign to the installation. Grants, jobs and
file libraries are not mentioned: they may differ in any way. -/
structure SameForTenant (context : Context) (s s' : State) : Prop where
  publications : ∀ id p, ¬Foreign s.fleet context p.key →
    (s'.db.publications.find id = some p ↔ s.db.publications.find id = some p)
  scopes : ∀ i scope, ¬Foreign s.fleet context scope.key →
    (s'.db.scopes.find i = some scope ↔ s.db.scopes.find i = some scope)
  manifests : ∀ id p, ¬Foreign s.fleet context p.key → s.db.publications.find id = some p →
    s'.db.documents.manifests.any (·.publication = id) = s.db.documents.manifests.any (·.publication = id)

/-- Every publication carries the key of its scope row. -/
def ScopesMatch (db : Db) : Prop :=
  ∀ id p, db.publications.find id = some p → ∃ scope, db.scopes.find p.scopeState = some scope ∧ scope.key = p.key

/-- The hash `request_manifest` computes for an installation. -/
def installationStateHash (settings : Settings) (s : State) (id : InstallationId) (generation : ℕ) (now : Time) :
    Except Error String := do
  let (context, publications) ← manifestPublications s id now
  let capabilities ← manifestCapabilities settings s.fleet
  manifestStateHash settings s.db.documents context publications generation capabilities

/-! ### The selection -/

/-- What the query and the two filters after it let through. -/
def Selected (fleet : Fleet) (department : DepartmentId) (vehicle : Vehicle) (publication : Publication) : Bool :=
  inDeliveryQuery department vehicle publication ∧ publicationIsExposed publication department ∧
    featureEnabledFor fleet department publication

theorem State.deliverable_eq (s : State) (department : DepartmentId) (vehicle : Vehicle) :
    s.deliverable department vehicle =
      (s.db.publications.entries.filter fun e => Selected s.fleet department vehicle e.2).insertionSort
        fun a b => codeOrder a.2.key.target.datasetTypeCode ≤ codeOrder b.2.key.target.datasetTypeCode := by
  unfold State.deliverable Table.filter
  rw [filter_insertionSort (r := fun a b : PublicationId × Publication =>
    codeOrder a.2.key.target.datasetTypeCode ≤ codeOrder b.2.key.target.datasetTypeCode)
    (fun _ _ => le_total _ _) (fun _ _ _ => le_trans), List.filter_filter]
  congr 1
  refine List.filter_congr fun e _ => ?_
  simp only [Selected, Bool.decide_and, Bool.decide_eq_true]
  rw [Bool.and_comm]

theorem State.mem_deliverable {s : State} {department : DepartmentId} {vehicle : Vehicle} {id : PublicationId}
    {p : Publication} : (id, p) ∈ s.deliverable department vehicle ↔
      s.db.publications.find id = some p ∧ Selected s.fleet department vehicle p = true := by
  rw [State.deliverable_eq, List.mem_insertionSort, List.mem_filter, Table.mem_entries]

/-- A selected publication is one the installation may see. -/
theorem Selected.concerns {fleet : Fleet} {context : Context} {vehicleId : VehicleId} {vehicle : Vehicle}
    {p : Publication} (hv : context.vehicle = some (vehicleId, vehicle))
    (h : Selected fleet context.tablet.department vehicle p = true) : Concerns fleet context p.key := by
  simp only [Selected, inDeliveryQuery, publicationIsExposed, featureEnabledFor, decide_eq_true_eq] at h
  obtain ⟨⟨howner, -, -, hstation⟩, hexposed, hfeature⟩ := h
  cases hdef : getDatasetDefinition p.key.target.datasetTypeCode with
  | error e => simp [hdef] at hexposed
  | ok definition =>
    simp only [hdef] at hexposed hfeature
    split at hexposed
    · cases hexposed
    · unfold Concerns
      cases hscope : p.key.scopeType with
      | system =>
        simp only [hscope, decide_eq_true_eq] at hexposed
        obtain ⟨hsystem, hd, hst⟩ := hexposed
        exact ⟨by simp [systemExposed, hdef, hsystem, hfeature], hd, hst⟩
      | department =>
        simp only [hscope, decide_eq_true_eq] at hexposed
        exact ⟨hexposed.2, hexposed.1⟩
      | station =>
        simp only [hscope, decide_eq_true_eq] at hexposed
        obtain ⟨station, hst⟩ := Option.isSome_iff_exists.mp hexposed.1
        refine ⟨hexposed.2, station, (vehicleId, vehicle), hst, hv, ?_⟩
        rcases hstation with hnone | ⟨station', hst', hid⟩
        · rw [hst] at hnone
          cases hnone
        · rw [hst] at hst'
          cases hst'
          exact hid

theorem Concerns.not_foreign {fleet : Fleet} {context : Context} {key : ScopeKey} (h : Concerns fleet context key) :
    ¬Foreign fleet context key := by
  unfold Concerns at h
  rintro (⟨d, hd, hne⟩ | ⟨station, hst, hother⟩ | ⟨hsystem, hnone, hhidden⟩)
  · cases hscope : key.scopeType <;> simp only [hscope] at h
    · rw [h.2.1] at hd
      cases hd
    · rw [h.1] at hd
      exact hne (Option.some.inj hd).symm
    · rw [h.1] at hd
      exact hne (Option.some.inj hd).symm
  · cases hscope : key.scopeType <;> simp only [hscope] at h
    · rw [h.2.2] at hst
      cases hst
    · rw [h.2] at hst
      cases hst
    · obtain ⟨-, station', v, hst', hv, hid⟩ := h
      rw [hst] at hst'
      cases hst'
      exact hother v hv hid
  · simp only [hsystem] at h
    rw [h.1] at hhidden
    cases hhidden

/-- The delivered list reads no foreign row. -/
theorem SameForTenant.deliverable {context : Context} {s s' : State} {vehicleId : VehicleId} {vehicle : Vehicle}
    (h : SameForTenant context s s') (hfleet : s'.fleet = s.fleet)
    (hv : context.vehicle = some (vehicleId, vehicle)) :
    s'.deliverable context.tablet.department vehicle = s.deliverable context.tablet.department vehicle := by
  rw [State.deliverable_eq, State.deliverable_eq, hfleet]
  congr 1
  exact Table.filter_entries_congr fun id p hp =>
    h.publications id p (Selected.concerns hv hp).not_foreign

theorem authorizationContext_eq_ok {fleet : Fleet} {installation : InstallationId} {now : Time} {context : Context}
    {vehicleId : VehicleId} {vehicle : Vehicle} :
    authorizationContext fleet installation now = .ok (context, vehicleId, vehicle) ↔
      controlPlaneContext fleet installation now = .ok context ∧ context.tablet.status = .active ∧
        context.vehicle = some (vehicleId, vehicle) := by
  simp only [authorizationContext, bind_eq_ok, check_eq_ok, not_not]
  constructor
  · rintro ⟨context', hc, hactive, h⟩
    split at h
    · cases h
    · rename_i v hv
      cases h
      exact ⟨hc, hactive, hv⟩
  · rintro ⟨hc, hactive, hv⟩
    exact ⟨context, hc, hactive, by rw [hv]; rfl⟩

theorem authorizedPublications_eq_ok {s : State} {installation : InstallationId} {now : Time} {context : Context}
    {vehicle : Vehicle} {publications : List (PublicationId × Publication)} :
    authorizedPublications s installation now = .ok (context, vehicle, publications) ↔
      controlPlaneContext s.fleet installation now = .ok context ∧ context.tablet.status = .active ∧
        (∃ vehicleId, context.vehicle = some (vehicleId, vehicle)) ∧
        publications = s.deliverable context.tablet.department vehicle := by
  simp only [authorizedPublications, bind_eq_ok, pure_eq_ok, Prod.mk.injEq, Prod.exists,
    authorizationContext_eq_ok]
  constructor
  · rintro ⟨c, i, v, ⟨hc, ha, hv⟩, rfl, rfl, rfl⟩
    exact ⟨hc, ha, ⟨i, hv⟩, rfl⟩
  · rintro ⟨hc, ha, ⟨i, hv⟩, rfl⟩
    exact ⟨context, i, vehicle, ⟨hc, ha, hv⟩, rfl, rfl, rfl⟩

/-- The manifest list is empty unless the tablet is active and has a vehicle. -/
theorem manifestPublications_eq_ok {s : State} {installation : InstallationId} {now : Time} {context : Context}
    {publications : List (PublicationId × Publication)} :
    manifestPublications s installation now = .ok (context, publications) ↔
      controlPlaneContext s.fleet installation now = .ok context ∧
        (context.tablet.status = .inactive ∧ publications = [] ∨
          context.tablet.status = .active ∧ context.vehicle = none ∧ publications = [] ∨
          context.tablet.status = .active ∧ ∃ vehicleId vehicle, context.vehicle = some (vehicleId, vehicle) ∧
            publications = s.deliverable context.tablet.department vehicle) := by
  simp only [manifestPublications, bind_eq_ok]
  constructor
  · rintro ⟨c, hc, h⟩
    split at h
    · rename_i hinactive
      cases h
      exact ⟨hc, .inl ⟨hinactive, rfl⟩⟩
    · rw [check_eq_ok, not_not] at h
      obtain ⟨hactive, h⟩ := h
      split at h
      · rename_i hv
        cases h
        exact ⟨hc, .inr (.inl ⟨hactive, hv, rfl⟩)⟩
      · rename_i i v hv
        cases h
        exact ⟨hc, .inr (.inr ⟨hactive, i, v, hv, rfl⟩)⟩
  · rintro ⟨hc, h⟩
    refine ⟨context, hc, ?_⟩
    rcases h with ⟨hst, rfl⟩ | ⟨hst, hv, rfl⟩ | ⟨hst, i, v, hv, rfl⟩
    · rw [if_pos hst]
      rfl
    · rw [if_neg (by rw [hst]; decide), if_neg (by rw [hst]; decide), hv]
      rfl
    · rw [if_neg (by rw [hst]; decide), if_neg (by rw [hst]; decide), hv]
      rfl

/-- What an authorization of a generation checks, apart from the context. -/
structure GenerationAuthorized (s : State) (id : PublicationId) (context : Context) (vehicle : Vehicle)
    (p : Publication) (sc : Scope) : Prop where
  publication : s.db.publications.find id = some p
  scope : s.db.scopes.find p.scopeState = some sc
  version : checkAppVersion s.fleet context.installation = .ok ()
  schema : p.schemaVersion = 2
  dataset : p.key.target.datasetTypeCode.isDocumentDataset = true
  department : p.key.target.department = some context.tablet.department
  station : ∀ st, p.key.target.station = some st → st.id = vehicle.station
  listed : id ∈ (s.deliverable context.tablet.department vehicle).map Prod.fst ∧
      sc.currentPublishedPublication = some id ∨
    retainedLibrary sc p (s.deliverable context.tablet.department vehicle) = true

theorem authorizedGeneration_eq_ok {s : State} {id : PublicationId} {installation : InstallationId} {now : Time}
    {context : Context} :
    authorizedGeneration s id installation now = .ok context ↔
      controlPlaneContext s.fleet installation now = .ok context ∧ context.tablet.status = .active ∧
        ∃ vehicleId vehicle publication scope, context.vehicle = some (vehicleId, vehicle) ∧
          GenerationAuthorized s id context vehicle publication scope := by
  have hfound : ∀ {α : Type} {o : Option α} {a : α}, found o = .ok a ↔ o = some a := by
    intro α o a
    cases o <;> simp [found]
  simp only [authorizedGeneration, bind_eq_ok, hfound, Prod.exists, check_eq_ok, pure_eq_ok,
    authorizedPublications_eq_ok]
  constructor
  · rintro ⟨p, hp, sc, hsc, c, v, l, ⟨hc, ha, ⟨i, hv⟩, rfl⟩, _, happ, hschema, hdep, hst, hlist, rfl⟩
    simp only [not_or, not_not, Bool.not_eq_true] at hschema hdep
    refine ⟨hc, ha, i, v, p, sc, hv, hp, hsc, happ, hschema.1, ?_, hdep, fun st hs => ?_, ?_⟩
    · simpa using hschema.2
    · by_contra hne
      exact hst ⟨st, hs, hne⟩
    · rw [not_and_or, not_or, not_not, not_not, not_not] at hlist
      exact hlist
  · rintro ⟨hc, ha, i, v, p, sc, hv, g⟩
    refine ⟨p, g.publication, sc, g.scope, context, v, _, ⟨hc, ha, ⟨i, hv⟩, rfl⟩, (), g.version, ?_, ?_, ?_, ?_, rfl⟩
    · rw [not_or, not_not, not_not]
      exact ⟨g.schema, g.dataset⟩
    · rw [not_not]
      exact g.department
    · rintro ⟨st, hs, hne⟩
      exact hne (g.station st hs)
    · rw [not_and_or, not_or, not_not, not_not, not_not]
      exact g.listed

/-- A generation that may be delivered belongs to the installation. -/
theorem GenerationAuthorized.concerns {s : State} {id : PublicationId} {context : Context} {vehicleId : VehicleId}
    {vehicle : Vehicle} {p : Publication} {scope : Scope} (hm : ScopesMatch s.db)
    (hv : context.vehicle = some (vehicleId, vehicle)) (g : GenerationAuthorized s id context vehicle p scope) :
    Concerns s.fleet context p.key := by
  rcases g.listed with ⟨hmem, -⟩ | hretained
  · obtain ⟨⟨i, q⟩, hq, rfl⟩ := List.mem_map.mp hmem
    obtain ⟨hfind, hsel⟩ := State.mem_deliverable.mp hq
    rw [g.publication] at hfind
    cases hfind
    exact Selected.concerns hv hsel
  · simp only [retainedLibrary, decide_eq_true_eq, List.any_eq_true] at hretained
    obtain ⟨-, -, -, ⟨i, q⟩, hq, hscope, -⟩ := hretained
    obtain ⟨hfind, hsel⟩ := State.mem_deliverable.mp hq
    obtain ⟨sc, hsc, hkey⟩ := hm id p g.publication
    obtain ⟨sc', hsc', hkey'⟩ := hm i q hfind
    rw [hscope, hsc] at hsc'
    cases hsc'
    rw [← hkey, hkey']
    exact Selected.concerns hv hsel

/-- An authorization survives any change of foreign rows. -/
theorem SameForTenant.generation {context : Context} {s s' : State} {id : PublicationId} {vehicleId : VehicleId}
    {vehicle : Vehicle} {p : Publication} {scope : Scope} (h : SameForTenant context s s') (hfleet : s'.fleet = s.fleet)
    (hm : ScopesMatch s.db) (hv : context.vehicle = some (vehicleId, vehicle))
    (g : GenerationAuthorized s id context vehicle p scope) :
    GenerationAuthorized s' id context vehicle p scope := by
  have hown := (g.concerns hm hv).not_foreign
  have hkey : scope.key = p.key := by
    obtain ⟨sc, hsc, hk⟩ := hm id p g.publication
    rw [g.scope] at hsc
    cases hsc
    exact hk
  refine ⟨(h.publications id p hown).mpr g.publication, (h.scopes _ scope (by rwa [hkey])).mpr g.scope, ?_, g.schema,
    g.dataset, g.department, g.station, ?_⟩
  · rw [hfleet]
    exact g.version
  · rw [h.deliverable hfleet hv]
    exact g.listed

theorem SameForTenant.symm {context : Context} {s s' : State} (h : SameForTenant context s s')
    (hfleet : s'.fleet = s.fleet) : SameForTenant context s' s where
  publications id p hp := (h.publications id p (by rwa [hfleet] at hp)).symm
  scopes i scope hs := (h.scopes i scope (by rwa [hfleet] at hs)).symm
  manifests id p hp hfind := by
    rw [hfleet] at hp
    exact (h.manifests id p hp ((h.publications id p hp).mp hfind)).symm

/-- The hashed entries of the delivered list read no foreign row. -/
theorem SameForTenant.manifestStateHash {context : Context} {s s' : State} {settings : Settings} {generation : ℕ}
    {capabilities : Capabilities} {publications : List (PublicationId × Publication)}
    (h : SameForTenant context s s')
    (hown : ∀ e ∈ publications, s.db.publications.find e.1 = some e.2 ∧ Concerns s.fleet context e.2.key) :
    manifestStateHash settings s'.db.documents context publications generation capabilities =
      manifestStateHash settings s.db.documents context publications generation capabilities := by
  have hentries : publications.mapM (publicationManifestEntry s'.db.documents) =
      publications.mapM (publicationManifestEntry s.db.documents) := by
    refine mapM_congr_ok fun e he => ?_
    obtain ⟨hfind, hc⟩ := hown e he
    simp only [publicationManifestEntry, documentEntry, h.manifests e.1 e.2 hc.not_foreign hfind]
  simp only [Delivery.manifestStateHash, manifestState, hentries]

/-- The delivered publications are rows of the database that the installation may see. -/
theorem deliverable_concerns {s : State} {context : Context} {vehicleId : VehicleId} {vehicle : Vehicle}
    (hv : context.vehicle = some (vehicleId, vehicle)) {e : PublicationId × Publication}
    (he : e ∈ s.deliverable context.tablet.department vehicle) :
    s.db.publications.find e.1 = some e.2 ∧ Concerns s.fleet context e.2.key := by
  obtain ⟨hfind, hsel⟩ := State.mem_deliverable.mp he
  exact ⟨hfind, Selected.concerns hv hsel⟩

theorem manifestPublications_concerns {s : State} {installation : InstallationId} {now : Time} {context : Context}
    {publications : List (PublicationId × Publication)}
    (h : manifestPublications s installation now = .ok (context, publications)) :
    ∀ e ∈ publications, s.db.publications.find e.1 = some e.2 ∧ Concerns s.fleet context e.2.key := by
  obtain ⟨-, ⟨-, rfl⟩ | ⟨-, -, rfl⟩ | ⟨-, i, v, hv, rfl⟩⟩ := manifestPublications_eq_ok.mp h
  · simp
  · simp
  · exact fun e he => deliverable_concerns hv he

/-- What an installation is shown is the same in two states that differ only in rows of
other tenants, and it consists of rows that concern the installation. -/
theorem tenant_isolation {s s' : State} {installation : InstallationId} {now : Time} (hfleet : s'.fleet = s.fleet)
    (hsame : ∀ context, controlPlaneContext s.fleet installation now = .ok context → SameForTenant context s s')
    (hm : ScopesMatch s.db) (hm' : ScopesMatch s'.db) :
    (authorizedPublications s' installation now = authorizedPublications s installation now ∧
      manifestPublications s' installation now = manifestPublications s installation now ∧
      (∀ settings generation, installationStateHash settings s' installation generation now =
        installationStateHash settings s installation generation now) ∧
      ∀ id context, authorizedGeneration s' id installation now = .ok context ↔
        authorizedGeneration s id installation now = .ok context) ∧
    (∀ context vehicle publications, authorizedPublications s installation now = .ok (context, vehicle, publications) →
      ∀ e ∈ publications, Concerns s.fleet context e.2.key) ∧
    (∀ context publications, manifestPublications s installation now = .ok (context, publications) →
      ∀ e ∈ publications, Concerns s.fleet context e.2.key) ∧
    ∀ id context, authorizedGeneration s id installation now = .ok context →
      ∃ p, s.db.publications.find id = some p ∧ Concerns s.fleet context p.key := by
  have hdeliver : ∀ {context vehicleId vehicle}, controlPlaneContext s.fleet installation now = .ok context →
      context.vehicle = some (vehicleId, vehicle) →
      s'.deliverable context.tablet.department vehicle = s.deliverable context.tablet.department vehicle :=
    fun hc hv => (hsame _ hc).deliverable hfleet hv
  have hauthorized : authorizedPublications s' installation now = authorizedPublications s installation now := by
    unfold authorizedPublications
    rw [hfleet]
    cases hc : authorizationContext s.fleet installation now with
    | error e => rfl
    | ok found =>
      obtain ⟨context, vehicleId, vehicle⟩ := found
      obtain ⟨hcontext, -, hv⟩ := authorizationContext_eq_ok.mp hc
      simp only [Bind.bind, Except.bind, hdeliver hcontext hv]
  have hmanifest : manifestPublications s' installation now = manifestPublications s installation now := by
    unfold manifestPublications
    rw [hfleet]
    cases hc : controlPlaneContext s.fleet installation now with
    | error e => rfl
    | ok context =>
      simp only [Bind.bind, Except.bind]
      cases hv : context.vehicle with
      | none => rfl
      | some v =>
        obtain ⟨vehicleId, vehicle⟩ := v
        simp only [hdeliver hc hv]
  refine ⟨⟨hauthorized, hmanifest, fun settings generation => ?_, fun id context => ?_⟩, ?_, ?_, ?_⟩
  · unfold installationStateHash
    rw [hmanifest, hfleet]
    cases hp : manifestPublications s installation now with
    | error e => rfl
    | ok found =>
      obtain ⟨context, publications⟩ := found
      have hc := (manifestPublications_eq_ok.mp hp).1
      simp only [Bind.bind, Except.bind,
        (hsame context hc).manifestStateHash (manifestPublications_concerns hp)]
  · rw [authorizedGeneration_eq_ok, authorizedGeneration_eq_ok, hfleet]
    refine and_congr_right fun hc => and_congr_right fun _ => ?_
    have h := hsame context hc
    constructor
    · rintro ⟨i, v, p, sc, hv, g⟩
      exact ⟨i, v, p, sc, hv, (h.symm hfleet).generation hfleet.symm hm' hv g⟩
    · rintro ⟨i, v, p, sc, hv, g⟩
      exact ⟨i, v, p, sc, hv, h.generation hfleet hm hv g⟩
  · intro context vehicle publications hp e he
    obtain ⟨-, -, ⟨i, hv⟩, rfl⟩ := authorizedPublications_eq_ok.mp hp
    exact (deliverable_concerns hv he).2
  · exact fun context publications hp e he => (manifestPublications_concerns hp e he).2
  · intro id context hg
    obtain ⟨-, -, i, v, p, sc, hv, g⟩ := authorizedGeneration_eq_ok.mp hg
    exact ⟨p, g.publication, g.concerns hm hv⟩

/-- A published phonebook and its scope. -/
def publishedPhonebook (department : DepartmentId) : Publication where
  scopeState := department
  key := ⟨.department, ⟨some department, none, .departmentPhonebook⟩⟩
  versionNumber := 1
  schemaVersion := 1
  sourceRevision := 1
  status := .published
  artifactReady := true
  artifactStatus := .ready
  createdAt := 0

/-- Department 1 publishes its phonebook; department 0 may publish one as well. -/
def tenantRows (neighbours : List Publication) : State where
  db :=
    { scopes := ⟨[{ key := (publishedPhonebook 0).key }, { key := (publishedPhonebook 1).key }]⟩
      publications := ⟨publishedPhonebook 1 :: neighbours⟩ }
  fleet := sampleFleet

theorem tenantRows_isolated :
    (authorizedPublications (tenantRows [publishedPhonebook 0]) 0 5).map (·.2.2) =
        .ok [(0, publishedPhonebook 1)] ∧
      authorizedPublications (tenantRows [publishedPhonebook 0]) 0 5 = authorizedPublications (tenantRows []) 0 5 := by
  have hmatch : ∀ l, (∀ p ∈ l, p = publishedPhonebook 0) → ScopesMatch (tenantRows l).db := by
    intro l hl id p hp
    rcases List.mem_cons.mp (List.mem_of_getElem? hp) with rfl | hmem
    · exact ⟨_, rfl, rfl⟩
    · rw [hl p hmem]
      exact ⟨_, rfl, rfl⟩
  have hsame : ∀ context, controlPlaneContext sampleFleet 0 5 = .ok context →
      SameForTenant context (tenantRows []) (tenantRows [publishedPhonebook 0]) := by
    intro context hc
    have htablet : context.tablet.department = 1 := by
      have hd : (controlPlaneContext sampleFleet 0 5).map (·.tablet.department) = .ok 1 := by decide +kernel
      rw [hc] at hd
      exact Except.ok.inj hd
    refine ⟨fun id p hown => ?_, fun _ _ _ => Iff.rfl, fun _ _ _ _ => rfl⟩
    have hne : p ≠ publishedPhonebook 0 := by
      rintro rfl
      exact hown (.inl ⟨0, rfl, by rw [htablet]; decide⟩)
    match id with
    | 0 => exact Iff.rfl
    | 1 => exact ⟨fun h => absurd (Option.some.inj h).symm hne, fun h => by cases h⟩
    | k + 2 => exact Iff.rfl
  have h := @tenant_isolation (tenantRows []) (tenantRows [publishedPhonebook 0]) 0 5 rfl hsame
    (hmatch [] (by simp)) (hmatch [publishedPhonebook 0] (by simp))
  exact ⟨by decide +kernel, h.1.1⟩

end FireDash.Delivery
