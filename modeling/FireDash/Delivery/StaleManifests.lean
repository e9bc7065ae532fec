import FireDash.Delivery.System

/-! Key grants embedded in served manifests: a coalesced manifest stays ready when a grant it
embeds is withdrawn, and is served again once its state recurs. -/
namespace FireDash.Delivery

open Publications Tx

/-! ### Outdated manifests -/

/-- A ready grant of the publication and the installation leaves ready in the step from `s` to `t`. -/
def withdrawnIn (s t : State) (publication : PublicationId) (installation : InstallationId) : Bool :=
  s.db.keyGrants.entries.any fun e => e.2.publication = publication ∧ e.2.appInstallation = installation ∧
    e.2.status = .ready ∧ (t.db.keyGrants.find e.1).map (·.status) ≠ some .ready

/-- The step withdraws a grant that the manifest embeds. -/
def losesGrant (s t : State) (m : SignedManifest) : Bool :=
  match m.payload with
  | none => false
  | some payload => payload.datasets.any fun
    | .document _ => false
    | .artifact dataset => withdrawnIn s t dataset.entry.publicationId m.appInstallation

/-- The ready manifests one of whose grants was withdrawn since they were signed. -/
def outdatedAfter (s t : State) (outdated : List ℕ) : List ℕ :=
  (s.signedManifests.entries.filter fun e => e.2.status = .ready ∧ (e.1 ∈ outdated ∨ losesGrant s t e.2)).map Prod.fst

/-- The delivery machine beside the list of its outdated manifests. -/
def watched (crypto : DeliveryCrypto) (hash : ManifestState → String) : Machine (State × List ℕ) (Settings × Action) where
  init s := Deployed s.1 ∧ s.2 = []
  step s a t := (delivery crypto hash).step s.1 a t.1 ∧ t.2 = outdatedAfter s.1 t.1 s.2

/-- The manifest that a request finds for the current state was signed after the last
withdrawal of a grant it embeds. -/
def UpToDate (settings : Settings) (s : State) (outdated : List ℕ) (installation : InstallationId) (generation : ℕ)
    (now : Time) : Prop :=
  ∀ stateHash id m, installationStateHash settings s installation generation now = .ok stateHash →
    s.signedManifests.first (fun m => m.appInstallation = installation ∧ m.stateHash = stateHash) = some (id, m) →
    id ∉ outdated

/-- The embedded grant is the key of a ready grant row. -/
def GrantFresh (s : State) (installation : InstallationId) (dataset : ArtifactDataset) : Prop :=
  ∃ i g, s.db.keyGrants.find i = some g ∧ g.publication = dataset.entry.publicationId ∧
    g.appInstallation = installation ∧ g.status = .ready ∧ embeddedGrant g = .ok dataset.keyGrant

/-- Every grant of the payload is the key of a ready grant row. -/
def GrantsFresh (s : State) (installation : InstallationId) (payload : Payload) : Prop :=
  ∀ dataset, PayloadDataset.artifact dataset ∈ payload.datasets → GrantFresh s installation dataset

variable {s t : State} {crypto : DeliveryCrypto} {settings : Settings} {hash : ManifestState → String}
  {outdated : List ℕ}

/-! ### The invariant -/

/-- A grant that stays ready keeps its key. -/
theorem GrantFresh.step (hs : Stepped crypto settings s t) {installation : InstallationId} {dataset : ArtifactDataset}
    (h : GrantFresh s installation dataset)
    (hkept : withdrawnIn s t dataset.entry.publicationId installation = false) : GrantFresh t installation dataset := by
  obtain ⟨i, g, hg, hpub, hinst, hst, hkey⟩ := h
  have hmem : (i, g) ∈ s.db.keyGrants.entries := Table.mem_entries.mpr hg
  have hready : (t.db.keyGrants.find i).map (·.status) = some .ready := by
    by_contra hne
    have hany : withdrawnIn s t dataset.entry.publicationId installation = true :=
      List.any_eq_true.mpr ⟨(i, g), hmem, decide_eq_true ⟨hpub, hinst, hst, hne⟩⟩
    rw [hkept] at hany
    cases hany
  obtain ⟨g', hg', hst'⟩ := Option.map_eq_some_iff.mp hready
  rcases hs.readyGrant hg' hst' with hold | ⟨g₀, now, encapsulatedKey, wrappedKey, hg₀, hrunning, -⟩
  · rw [hg] at hold
    cases hold
    exact ⟨i, g, hg', hpub, hinst, hst', hkey⟩
  · -- A grant that was ready is not the one a build just ended.
    rw [hg] at hg₀
    cases hg₀
    rw [hst] at hrunning
    cases hrunning

/-- A manifest is signed with the keys of ready grants. -/
theorem Signs.grantsFresh {v u : State} {m : SignedManifest} {now : Time} {context : Context}
    {publications publications' : List (PublicationId × Publication)} {grants : List (ℕ × KeyGrant)}
    {capabilities : Capabilities} {payload : Payload}
    (h : Signs settings crypto s v u m now context publications publications' grants capabilities payload) :
    GrantsFresh u m.appInstallation payload := by
  intro dataset hmem
  have hpay := h.rendered
  simp only [manifestPayload, bind_eq_ok, pure_eq_ok] at hpay
  obtain ⟨datasets, hdatasets, rfl⟩ := hpay
  obtain ⟨e, -, he⟩ := exists_left_of_forall₂ (mapM_eq_ok.mp hdatasets) hmem
  simp only [payloadDataset, bind_eq_ok] at he
  obtain ⟨definition, -, he⟩ := he
  split at he
  · simp only [bind_eq_ok, pure_eq_ok, reduceCtorEq, and_false] at he
    obtain ⟨_, hno⟩ := he
    cases hno
  · split at he
    · cases he
    · rename_i i g hfind
      simp only [bind_eq_ok, check_eq_ok, pure_eq_ok] at he
      obtain ⟨scope, -, -, keyGrant, hkey, hdataset⟩ := he
      cases hdataset
      have hmem' : (i, g) ∈ grants := List.mem_reverse.mp (List.mem_of_find?_eq_some hfind)
      have hpub : g.publication = e.1 := by simpa using List.find?_some hfind
      obtain ⟨hrow, hinst⟩ := h.granted.ready hmem' (h.ready _ hmem')
      have hsame : u.db.keyGrants = v.db.keyGrants := by rw [h.resigns.rest]
      exact ⟨i, g, by rw [hsame]; exact hrow, hpub, hinst, h.ready _ hmem', hkey⟩

/-- Every ready manifest that is not outdated embeds the keys of ready grants. -/
def ManifestsFresh (w : State × List ℕ) : Prop :=
  ∀ i m, w.1.signedManifests.find i = some m → m.status = .ready → i ∉ w.2 →
    ∃ payload, m.payload = some payload ∧ GrantsFresh w.1 m.appInstallation payload

theorem manifestsFresh_step (hs : Stepped crypto settings s t) (h : ManifestsFresh (s, outdated)) :
    ManifestsFresh (t, outdatedAfter s t outdated) := by
  intro i m hm hst hout
  rcases hs.readyManifest hm hst with hold | hsigned
  · have hin : i ∉ outdated ∧ losesGrant s t m = false := by
      by_contra hno
      refine hout (List.mem_map.mpr ⟨(i, m), List.mem_filter.mpr ⟨Table.mem_entries.mpr hold, ?_⟩, rfl⟩)
      rw [not_and_or, not_not, Bool.not_eq_false] at hno
      exact decide_eq_true ⟨hst, hno⟩
    obtain ⟨payload, hp, hfresh⟩ := h i m hold hst hin.1
    refine ⟨payload, hp, fun dataset hmem => (hfresh dataset hmem).step hs ?_⟩
    have hnone := hin.2
    unfold losesGrant at hnone
    rw [hp] at hnone
    simpa using List.any_eq_false.mp hnone _ hmem
  · obtain ⟨m₀, now, payload, signature, v, u, context, publications, publications', grants, capabilities,
      -, -, rfl, hsigns, rfl⟩ := hsigned
    exact ⟨payload, rfl, hsigns.grantsFresh⟩

theorem manifestsFresh_of_reachable {w : State × List ℕ} (h : (watched crypto hash).Reachable w) : ManifestsFresh w := by
  have hpair : (delivery crypto hash).Reachable w.1 ∧ ManifestsFresh w := by
    refine h.invariant (I := fun w => (delivery crypto hash).Reachable w.1 ∧ ManifestsFresh w) ?_ ?_
    · rintro w ⟨hd, -⟩
      refine ⟨.init hd, fun i m hm => ?_⟩
      rw [Deployed.signedManifests hd] at hm
      cases hm
    · rintro ⟨s, outdated⟩ ⟨settings, a⟩ ⟨t, outdated'⟩ ⟨hreach, hI⟩ ⟨hstep, hout⟩
      refine ⟨hreach.next hstep, ?_⟩
      have hs : Stepped crypto settings s t := by
        rw [show t = exec (a.run crypto settings) s from hstep.2]
        exact a.stepped (delivery_inv hreach)
      rw [show outdated' = outdatedAfter s t outdated from hout]
      exact manifestsFresh_step hs hI
  exact hpair.2

/-- In every run, a request returns the keys of ready grants when the manifest it finds was
signed after the last withdrawal of a grant it embeds. -/
theorem served_grants_fresh {s : State} (h : (watched crypto hash).Reachable (s, outdated))
    {installation : InstallationId} {generation : ℕ} {now clock : Time} {r : ManifestRequest} {t : State}
    {payload : SignedPayload} (hup : UpToDate settings s outdated installation generation now)
    (hreq : requestManifest settings installation generation now clock s = (.ok r, t)) (hp : r.payload = some payload) :
    ∃ signed, payload.payload = some signed ∧ GrantsFresh t installation signed := by
  obtain ⟨-, hserved⟩ := requestManifest_spec.of_ok hreq
  obtain ⟨hrequests, id, m, hserves⟩ := hserved payload hp
  have hout : id ∉ outdated := hup _ id m hserves.hash hserves.first
  obtain ⟨hm, hsel⟩ := Table.first_eq_some hserves.first
  simp only [decide_eq_true_eq] at hsel
  obtain ⟨signed, hsigned, hfresh⟩ := manifestsFresh_of_reachable h id m hm hserves.ready hout
  refine ⟨signed, hserves.payload.1.trans hsigned, fun dataset hmem => ?_⟩
  obtain ⟨i, g, hg, hpub, hinst, hst, hkey⟩ := hfresh dataset hmem
  exact ⟨i, g, hrequests.ready hg hst, hpub, hinst.trans hsel.1, hst, hkey⟩

/-! ### A rollback to an earlier publication -/

/-- A run of the sample deployment beside its outdated manifests. -/
def watchedRun : State × List ℕ → List Action → State × List ℕ
  | w, [] => w
  | (s, outdated), a :: rest =>
    let t := exec (a.run sampleCrypto sampleSettings) s
    watchedRun (t, outdatedAfter s t outdated) rest

theorem reachable_watchedRun {w : State × List ℕ} (h : (watched sampleCrypto sampleSettings.stateHash).Reachable w)
    (actions : List Action) : (watched sampleCrypto sampleSettings.stateHash).Reachable (watchedRun w actions) := by
  induction actions generalizing w with
  | nil => exact h
  | cons a rest ih =>
    obtain ⟨s, outdated⟩ := w
    have hnext : (watched sampleCrypto sampleSettings.stateHash).Reachable
        (exec (a.run sampleCrypto sampleSettings) s,
          outdatedAfter s (exec (a.run sampleCrypto sampleSettings) s) outdated) :=
      h.next (a := (sampleSettings, a)) ⟨⟨rfl, rfl⟩, rfl⟩
    exact ih hnext

/-- The sample deployment with a manifest of the first phonebook. -/
def servedState : State × List ℕ := watchedRun ({ fleet := sampleFleet }, []) servedPhonebook

/-- The payload the sample tablet is served, if any. -/
def servedPayload (s : State) : Option Payload :=
  match (requestManifest sampleSettings 0 1 4 4 s).1 with
  | .ok r => r.payload.bind (·.payload)
  | .error _ => none

theorem servedPayload_eq_some {s : State} {signed : Payload} (h : servedPayload s = some signed) :
    ∃ r payload, requestManifest sampleSettings 0 1 4 4 s = (.ok r, exec (requestManifest sampleSettings 0 1 4 4) s) ∧
      r.payload = some payload ∧ payload.payload = some signed := by
  unfold servedPayload at h
  unfold exec
  cases hreq : requestManifest sampleSettings 0 1 4 4 s with
  | mk result t =>
    rw [hreq] at h
    cases result with
    | error e => cases h
    | ok r =>
      obtain ⟨payload, hp, hsigned⟩ := Option.bind_eq_some_iff.mp h
      exact ⟨r, payload, rfl, hp, hsigned⟩

/-- A payload with a dataset is stale once no grant is ready. -/
theorem not_grantsFresh {s : State} {installation : InstallationId} {signed : Payload}
    (hpending : s.db.keyGrants.rows.all (·.status = .pending) = true)
    (hany : (signed.datasets.any fun
      | .artifact _ => true
      | .document _ => false) = true) : ¬GrantsFresh s installation signed := by
  intro hfresh
  obtain ⟨dataset, hmem, hartifact⟩ := List.any_eq_true.mp hany
  cases dataset with
  | document entry => cases hartifact
  | artifact dataset =>
    obtain ⟨i, g, hg, -, -, hst, -⟩ := hfresh dataset hmem
    have hrow : g.status = .pending := by
      simpa using List.all_eq_true.mp hpending g (List.mem_of_getElem? hg)
    rw [hst] at hrow
    cases hrow

theorem servedPhonebook_fresh : ∃ signed, servedPayload servedState.1 = some signed ∧ signed.datasets.length = 1 ∧
    GrantsFresh (exec (requestManifest sampleSettings 0 1 4 4) servedState.1) 0 signed := by
  have hlength : (servedPayload servedState.1).map (·.datasets.length) = some 1 := by decide +kernel
  have hnone : servedState.2 = [] := by decide +kernel
  have hreach : (watched sampleCrypto sampleSettings.stateHash).Reachable servedState :=
    reachable_watchedRun (.init ⟨deployed_sample, rfl⟩) servedPhonebook
  generalize servedState = w at hlength hnone hreach
  obtain ⟨s, outdated⟩ := w
  obtain ⟨signed, hserved, hone⟩ := Option.map_eq_some_iff.mp hlength
  obtain ⟨r, payload, hreq, hp, hsigned⟩ := servedPayload_eq_some hserved
  have hup : UpToDate sampleSettings s outdated 0 1 4 := by
    intro stateHash id m _ _
    rw [show outdated = [] from hnone]
    exact List.not_mem_nil
  obtain ⟨signed', hsigned', hfresh⟩ := served_grants_fresh hreach hup hreq hp
  rw [hsigned] at hsigned'
  cases hsigned'
  exact ⟨signed, hserved, hone, hfresh⟩

/-- The sample deployment after the phonebook is published again and rolled back. -/
def rolledBackState : State :=
  sampleRun (servedPhonebook ++ publishPhonebook 2 2 1 ++ [.publication (phonebookEnv 3 2) (.rollbackPublication 7 0)])

/-- The manifest of the first publication is served with its old key, while the only grant of the
tablet waits for a new one. -/
theorem rolledBackPhonebook_stale : ∃ s r payload signed,
    (delivery sampleCrypto sampleSettings.stateHash).Reachable s ∧
      requestManifest sampleSettings 0 1 4 4 s = (.ok r, exec (requestManifest sampleSettings 0 1 4 4) s) ∧
      r.payload = some payload ∧ payload.payload = some signed ∧
      ¬GrantsFresh (exec (requestManifest sampleSettings 0 1 4 4) s) 0 signed := by
  have hdatasets : (servedPayload rolledBackState).map (fun p => p.datasets.any fun
      | .artifact _ => true
      | .document _ => false) = some true := by decide +kernel
  have hgrants : (exec (requestManifest sampleSettings 0 1 4 4) rolledBackState).db.keyGrants.rows.all
      (·.status = .pending) = true := by decide +kernel
  have hreach : (delivery sampleCrypto sampleSettings.stateHash).Reachable rolledBackState := reachable_sampleRun _
  generalize rolledBackState = s at hdatasets hgrants hreach
  obtain ⟨signed, hserved, hany⟩ := Option.map_eq_some_iff.mp hdatasets
  obtain ⟨r, payload, hreq, hp, hsigned⟩ := servedPayload_eq_some hserved
  exact ⟨s, r, payload, signed, hreach, hreq, hp, hsigned, not_grantsFresh hgrants hany⟩

end FireDash.Delivery
