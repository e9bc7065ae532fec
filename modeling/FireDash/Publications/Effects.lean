import FireDash.Publications.Generation
import FireDash.Publications.System

/-! What a publication service may do to the rows that deliveries depend on: the
publications, their grants and their document generations. -/
namespace FireDash.Publications

open Tx

/-- The states an attempt may pass through from each state. -/
def PublicationStatus.mayBecome : PublicationStatus → PublicationStatus → Bool
  | .staged, _ => true
  | .building, q => q ≠ .staged
  | .readyForReview, q => q ∈ [.readyForReview, .published, .superseded, .rejected, .obsolete]
  | .published, q | .superseded, q => q ∈ [.published, .superseded, .obsolete]
  | p, q => p = q

theorem PublicationStatus.mayBecome_refl (p : PublicationStatus) : p.mayBecome p = true := by
  cases p <;> rfl

theorem PublicationStatus.mayBecome_trans {p q r : PublicationStatus} (h : p.mayBecome q = true)
    (h' : q.mayBecome r = true) : p.mayBecome r = true := by
  revert h h'
  cases p <;> cases q <;> cases r <;> decide

/-- One change of the document rows. -/
inductive DocumentStep (documents : DocumentTables) : DocumentTables → Prop
  | pin (contents : List PublicationContent) :
      DocumentStep documents { documents with contents := documents.contents ++ contents }
  | release (id : PublicationId) (code : DatasetTypeCode) : DocumentStep documents (documents.release id code).1
  | generation {cfg crypto worker canonical id publication built documents'}
      (hb : buildDocumentV2Generation cfg crypto worker canonical documents id publication = .ok built)
      (hm : buildDocumentV2Manifest cfg crypto worker canonical built id publication = .ok documents') :
      DocumentStep documents documents'
  | cleaned (artifact : ℕ) : DocumentStep documents { documents with cleanups := documents.cleanups.erase artifact }

def DocumentSteps : DocumentTables → DocumentTables → Prop := Relation.ReflTransGen DocumentStep

/-- The key of a publication is valid, and what its delivery format needs is stored. -/
def Publication.Deliverable (documents : DocumentTables) (id : PublicationId) (publication : Publication) : Prop :=
  ∃ definition, validateDatasetScope publication.key = .ok definition ∧
    (∀ station, publication.key.target.station = some station →
      publication.key.target.department = some station.departmentId) ∧
    if definition.artifactFormat = .documentManifestV2 then
      publication.schemaVersion = 2 ∧ documents.manifests.any (·.publication = id) = true
    else
      publication.artifact.nonce ≠ [] ∧ publication.artifact.wrappedCek ≠ [] ∧ publication.artifact.signature ≠ []

/-- What may happen to the row `p` of a publication when the documents become `documents`. -/
structure Evolves (documents : DocumentTables) (id : PublicationId) (p q : Publication) : Prop where
  scopeState : q.scopeState = p.scopeState
  key : q.key = p.key
  versionNumber : q.versionNumber = p.versionNumber
  schemaVersion : q.schemaVersion = p.schemaVersion
  status : p.status.mayBecome q.status = true
  finished : p.status.isFinished = true → q.artifact = p.artifact ∧ q.artifactStatus = p.artifactStatus
  ready : q.artifactStatus = .ready →
    p.artifactStatus = .ready ∧ q.artifact = p.artifact ∨ q.Deliverable documents id

/-- The grants of a grant table stay, or are revoked. -/
def GrantsRevoked (grants grants' : Table KeyGrant) : Prop :=
  ∀ i, grants'.find i = grants.find i ∨
    ∃ g t, grants.find i = some g ∧ grants'.find i = some { g with status := .revoked, revokedAt := t }

/-- Every grant of a publication is revoked. -/
def AllRevoked (grants : Table KeyGrant) (id : PublicationId) : Prop :=
  ∀ i g, grants.find i = some g → g.publication = id → g.status = .revoked

/-- The publication is no longer current, or no longer a predecessor. -/
def Leaves (p q : Publication) : Prop :=
  p.status = .published ∧ q.status ≠ .published ∨ p.status = .superseded ∧ q.status = .obsolete

/-- The effect of a service: rows evolve, new attempts start as drafts, grants are only
revoked, and they are revoked where a publication leaves. -/
structure Effect (db db' : Db) : Prop where
  documents : DocumentSteps db.documents db'.documents
  rows : ∀ {id p}, db.publications.find id = some p →
    ∃ q, db'.publications.find id = some q ∧ Evolves db'.documents id p q
  fresh : ∀ {id q}, db.publications.find id = none → db'.publications.find id = some q →
    ∃ p, p.status = .staged ∧ p.artifactStatus = .pending ∧ Evolves db'.documents id p q
  keyGrants : GrantsRevoked db.keyGrants db'.keyGrants
  generationKeyGrants : GrantsRevoked db.generationKeyGrants db'.generationKeyGrants
  withdrawn : ∀ {id p q}, db.publications.find id = some p → db'.publications.find id = some q → Leaves p q →
    AllRevoked db'.keyGrants id ∧
      (p.key.target.datasetTypeCode.isFileDataset = false → AllRevoked db'.generationKeyGrants id)

/-! ### Composition -/

theorem DocumentStep.manifests {d d' : DocumentTables} (h : DocumentStep d d') (id : PublicationId)
    (hm : d.manifests.any (·.publication = id) = true) : d'.manifests.any (·.publication = id) = true := by
  cases h with
  | pin contents => exact hm
  | release q code => exact hm
  | generation hb hm' =>
    have hsame := (buildDocumentV2Generation_grows hb).manifests
    rcases (buildDocumentV2Manifest_manifests hm').manifests with he | ⟨manifest, -, he⟩
    · rw [he, hsame]
      exact hm
    · rw [he, hsame, List.any_append, hm, Bool.true_or]
  | cleaned artifact => exact hm

theorem DocumentSteps.manifests {d d' : DocumentTables} (h : DocumentSteps d d') (id : PublicationId)
    (hm : d.manifests.any (·.publication = id) = true) : d'.manifests.any (·.publication = id) = true := by
  induction h with
  | refl => exact hm
  | tail _ step ih => exact step.manifests id ih

theorem Publication.Deliverable.mono {d d' : DocumentTables} {id : PublicationId} {p q : Publication}
    (h : p.Deliverable d id) (hd : DocumentSteps d d') (hk : q.key = p.key) (hv : q.schemaVersion = p.schemaVersion)
    (ha : q.artifact = p.artifact) : q.Deliverable d' id := by
  obtain ⟨definition, hdef, hstation, hmeta⟩ := h
  refine ⟨definition, by rw [hk, hdef], by rw [hk]; exact hstation, ?_⟩
  rw [hv, ha]
  split
  · rename_i hformat
    rw [if_pos hformat] at hmeta
    exact ⟨hmeta.1, hd.manifests id hmeta.2⟩
  · rename_i hformat
    rwa [if_neg hformat] at hmeta

theorem Evolves.refl (d : DocumentTables) (id : PublicationId) (p : Publication) : Evolves d id p p where
  scopeState := rfl
  key := rfl
  versionNumber := rfl
  schemaVersion := rfl
  status := p.status.mayBecome_refl
  finished _ := ⟨rfl, rfl⟩
  ready h := .inl ⟨h, rfl⟩

theorem PublicationStatus.mayBecome_finished {p q : PublicationStatus} (h : p.mayBecome q = true)
    (hp : p.isFinished = true) : q.isFinished = true := by
  revert h hp
  cases p <;> cases q <;> decide

theorem Evolves.trans {d d' : DocumentTables} {id : PublicationId} {p q r : Publication} (hd : DocumentSteps d d')
    (h : Evolves d id p q) (h' : Evolves d' id q r) : Evolves d' id p r where
  scopeState := h'.scopeState.trans h.scopeState
  key := h'.key.trans h.key
  versionNumber := h'.versionNumber.trans h.versionNumber
  schemaVersion := h'.schemaVersion.trans h.schemaVersion
  status := PublicationStatus.mayBecome_trans h.status h'.status
  finished hp := by
    obtain ⟨ha, hs⟩ := h.finished hp
    obtain ⟨ha', hs'⟩ := h'.finished (PublicationStatus.mayBecome_finished h.status hp)
    exact ⟨ha'.trans ha, hs'.trans hs⟩
  ready hr := by
    rcases h'.ready hr with ⟨hq, ha'⟩ | hnew
    · rcases h.ready hq with ⟨hp, ha⟩ | hdel
      · exact .inl ⟨hp, ha'.trans ha⟩
      · exact .inr (hdel.mono hd h'.key h'.schemaVersion ha')
    · exact .inr hnew

theorem GrantsRevoked.refl (grants : Table KeyGrant) : GrantsRevoked grants grants := fun _ => .inl rfl

theorem GrantsRevoked.trans {t t' t'' : Table KeyGrant} (h : GrantsRevoked t t') (h' : GrantsRevoked t' t'') :
    GrantsRevoked t t'' := by
  intro i
  rcases h' i with hsame' | ⟨g', at', hg', hrow'⟩
  · rw [hsame']
    exact h i
  · rcases h i with hsame | ⟨g, at₀, hg, hrow⟩
    · exact .inr ⟨g', at', hsame ▸ hg', hrow'⟩
    · rw [hrow] at hg'
      obtain rfl := Option.some.inj hg'
      exact .inr ⟨g, at', hg, hrow'⟩

/-- A grant after some were revoked is one of the old ones, unless it is revoked itself. -/
theorem GrantsRevoked.old {t t' : Table KeyGrant} (h : GrantsRevoked t t') {i : ℕ} {g : KeyGrant}
    (hg : t'.find i = some g) :
    t.find i = some g ∨ ∃ g₀ : KeyGrant, t.find i = some g₀ ∧ g₀.publication = g.publication ∧
      g₀.appInstallation = g.appInstallation ∧ g.status = .revoked := by
  rcases h i with hsame | ⟨g₀, at₀, hg₀, hrow⟩
  · exact .inl (hsame ▸ hg)
  · rw [hg] at hrow
    obtain rfl := Option.some.inj hrow
    exact .inr ⟨g₀, hg₀, rfl, rfl, rfl⟩

theorem AllRevoked.mono {t t' : Table KeyGrant} {id : PublicationId} (h : AllRevoked t id) (hr : GrantsRevoked t t') :
    AllRevoked t' id := by
  intro i g hg hid
  rcases hr.old hg with hold | ⟨_, -, -, -, hst⟩
  · exact h i g hold hid
  · exact hst

theorem Effect.refl (db : Db) : Effect db db where
  documents := .refl
  rows hp := ⟨_, hp, .refl _ _ _⟩
  fresh hn hq := by
    rw [hn] at hq
    cases hq
  keyGrants := .refl _
  generationKeyGrants := .refl _
  withdrawn {id p q} hp hq hl := by
    rw [hp] at hq
    cases hq
    rcases hl with ⟨h, hn⟩ | ⟨h, hn⟩
    · exact absurd h hn
    · rw [h] at hn
      cases hn

theorem Effect.trans {a b c : Db} (h : Effect a b) (h' : Effect b c) : Effect a c where
  documents := h.documents.trans h'.documents
  rows hp := by
    obtain ⟨q, hq, hpq⟩ := h.rows hp
    obtain ⟨r, hr, hqr⟩ := h'.rows hq
    exact ⟨r, hr, hpq.trans h'.documents hqr⟩
  fresh {id r} hn hr := by
    cases hq : b.publications.find id with
    | none => exact h'.fresh hq hr
    | some q =>
      obtain ⟨p, hst, hpend, hpq⟩ := h.fresh hn hq
      obtain ⟨r', hr', hqr⟩ := h'.rows hq
      rw [hr] at hr'
      cases hr'
      exact ⟨p, hst, hpend, hpq.trans h'.documents hqr⟩
  keyGrants := h.keyGrants.trans h'.keyGrants
  generationKeyGrants := h.generationKeyGrants.trans h'.generationKeyGrants
  withdrawn {id p r} hp hr hl := by
    obtain ⟨q, hq, hpq⟩ := h.rows hp
    have hfirst : Leaves p q → AllRevoked c.keyGrants id ∧
        (p.key.target.datasetTypeCode.isFileDataset = false → AllRevoked c.generationKeyGrants id) := fun hpq' =>
      ⟨(h.withdrawn hp hq hpq').1.mono h'.keyGrants, fun hf => ((h.withdrawn hp hq hpq').2 hf).mono h'.generationKeyGrants⟩
    by_cases hpq' : Leaves p q
    · exact hfirst hpq'
    · -- The publication is still where it was, or current again, so the second part withdraws it.
      have hqr : Leaves q r := by
        have hmay := hpq.status
        unfold Leaves at hl hpq' ⊢
        revert hl hpq' hmay
        cases p.status <;> cases q.status <;> cases r.status <;> decide
      rw [← hpq.key]
      exact h'.withdrawn hq hr hqr

/-! ### Elementary writes -/

variable {cfg : Config} {env : Env} {db db' : Db}

/-- Scopes, jobs, activations and callbacks are free; documents take their own steps. -/
theorem Effect.of_documents (hp : db'.publications = db.publications) (hk : db'.keyGrants = db.keyGrants)
    (hg : db'.generationKeyGrants = db.generationKeyGrants) (hd : DocumentSteps db.documents db'.documents) :
    Effect db db' where
  documents := hd
  rows hq := ⟨_, by rw [hp, hq], .refl _ _ _⟩
  fresh hn hq := by
    rw [hp, hn] at hq
    cases hq
  keyGrants := hk ▸ .refl _
  generationKeyGrants := hg ▸ .refl _
  withdrawn {id p q} hp' hq hl := by
    rw [hp] at hq
    exact (Effect.refl db).withdrawn hp' hq hl |>.imp (fun h => hk ▸ h) fun h hf => hg ▸ h hf

theorem Db.find_modified {p : PublicationId} {pub : Publication} {f : Publication → Publication}
    (hp : db.publications.find p = some pub) : (db.modifyPublication p f).publications.find p = some (f pub) := by
  simp [Db.modifyPublication, Table.find_modify, hp]

/-- One publication row is rewritten; its grants are withdrawn if it leaves. -/
theorem Effect.row {p : PublicationId} {pub : Publication} {f : Publication → Publication}
    (hp : db.publications.find p = some pub) (hpubs : db'.publications = db.publications.modify p f)
    (hd : DocumentSteps db.documents db'.documents) (hk : GrantsRevoked db.keyGrants db'.keyGrants)
    (hg : GrantsRevoked db.generationKeyGrants db'.generationKeyGrants)
    (he : Evolves db'.documents p pub (f pub))
    (hw : Leaves pub (f pub) → AllRevoked db'.keyGrants p ∧
      (pub.key.target.datasetTypeCode.isFileDataset = false → AllRevoked db'.generationKeyGrants p)) :
    Effect db db' where
  documents := hd
  rows {id q} hq := by
    rw [hpubs, Table.find_modify]
    by_cases hid : p = id
    · subst hid
      rw [hp] at hq
      cases hq
      exact ⟨f pub, by simp [hp], he⟩
    · exact ⟨q, by simp [hid, hq], .refl _ _ _⟩
  fresh {id q} hn hq := by
    rw [hpubs, Table.find_modify, hn] at hq
    split at hq <;> cases hq
  keyGrants := hk
  generationKeyGrants := hg
  withdrawn {id r q} hr hq hl := by
    rw [hpubs, Table.find_modify] at hq
    by_cases hid : p = id
    · subst hid
      rw [hp] at hr
      cases hr
      rw [if_pos rfl, hp] at hq
      cases hq
      exact hw hl
    · rw [if_neg hid, hr] at hq
      cases hq
      rcases hl with ⟨h, hn⟩ | ⟨h, hn⟩
      · exact absurd h hn
      · rw [h] at hn
        cases hn

/-- A row moves on with its metadata as it was. -/
theorem Evolves.of_columns {d : DocumentTables} {id : PublicationId} {p q : Publication}
    (hst : p.status.mayBecome q.status = true) (h1 : q.scopeState = p.scopeState) (h2 : q.key = p.key)
    (h3 : q.versionNumber = p.versionNumber) (h4 : q.schemaVersion = p.schemaVersion)
    (h5 : q.artifact = p.artifact) (h6 : q.artifactStatus = p.artifactStatus) : Evolves d id p q where
  scopeState := h1
  key := h2
  versionNumber := h3
  schemaVersion := h4
  status := hst
  finished _ := ⟨h5, h6⟩
  ready h := .inl ⟨h6 ▸ h, h5⟩

/-- A row that was not delivered withdraws nothing. -/
theorem not_leaves {p q : Publication} (h : p.status ≠ .published) (h' : p.status ≠ .superseded) : ¬Leaves p q := by
  rintro (⟨hp, -⟩ | ⟨hp, -⟩)
  · exact h hp
  · exact h' hp

theorem Effect.undelivered {p : PublicationId} {pub : Publication} {f : Publication → Publication}
    (hp : db.publications.find p = some pub) (h : pub.status ≠ .published) (h' : pub.status ≠ .superseded)
    (he : Evolves db.documents p pub (f pub)) : Effect db (db.modifyPublication p f) :=
  .row hp rfl .refl (.refl _) (.refl _) he fun hl => absurd hl (not_leaves h h')

/-- A staged attempt may be rewritten within its identity, started or cancelled. -/
theorem Effect.staged {p : PublicationId} {pub : Publication} {f : Publication → Publication}
    (hp : db.publications.find p = some pub) (hst : pub.status = .staged) (h1 : (f pub).scopeState = pub.scopeState)
    (h2 : (f pub).key = pub.key) (h3 : (f pub).versionNumber = pub.versionNumber)
    (h4 : (f pub).schemaVersion = pub.schemaVersion) (h5 : (f pub).artifact = pub.artifact)
    (h6 : (f pub).artifactStatus = pub.artifactStatus) : Effect db (db.modifyPublication p f) :=
  .undelivered hp (by rw [hst]; decide) (by rw [hst]; decide)
    (.of_columns (by rw [hst]; rfl) h1 h2 h3 h4 h5 h6)

theorem Effect.insert {p : Publication} (hst : p.status = .staged) (hpend : p.artifactStatus = .pending) :
    Effect db { db with publications := db.publications.insert p } where
  documents := .refl
  rows {id q} hq := by
    have hne : id ≠ db.publications.nextId := (Table.lt_nextId_of_find hq).ne
    exact ⟨q, by simp [hne, hq], .refl _ _ _⟩
  fresh {id q} hn hq := by
    simp only [Table.find_insert, hn] at hq
    split at hq
    · cases hq
      exact ⟨p, hst, hpend, .refl _ _ _⟩
    · cases hq
  keyGrants := .refl _
  generationKeyGrants := .refl _
  withdrawn {id r q} hr hq hl := by
    have hne : id ≠ db.publications.nextId := (Table.lt_nextId_of_find hr).ne
    simp only [Table.find_insert, if_neg hne, hr] at hq
    cases hq
    exact (Effect.refl db).withdrawn hr hr hl

theorem Effect.release (p : PublicationId) (code : DatasetTypeCode) : Effect db (db.release p code) :=
  .of_documents rfl rfl rfl (.single (.release p code))

/-! ### Writes -/

/-- States of an attempt whose frozen source may still be read. -/
def PublicationStatus.isHeld : PublicationStatus → Bool
  | .building | .readyForReview | .published | .superseded => true
  | _ => false

/-- A row is held after a write only if it was held before, and on the same source. -/
def Publication.Keeps (p q : Publication) : Prop :=
  q.status.isHeld = true →
    p.status.isHeld = true ∧ q.sourceSnapshot = p.sourceSnapshot ∧ q.sourceRevision = p.sourceRevision

theorem Publication.Keeps.of_releasable {p q : Publication} (hq : q.status.isReleasable = true) : p.Keeps q := by
  have hno : ∀ st : PublicationStatus, st.isReleasable = true → st.isHeld = false := by
    intro st
    cases st <;> decide
  intro hheld
  rw [hno _ hq] at hheld
  cases hheld

/-- The contents of the libraries, as the entries reference them. -/
def Canonical.contents (canonical : Canonical) : List Content :=
  canonical.libraries.flatMap fun l => l.entries.filterMap (·.content)

/-- The pin of one frozen library document, on the content its library holds. -/
structure PinOf (canonical : Canonical) (id : PublicationId) (library : ℕ) (entry : FileRecord × ℕ)
    (pin : PublicationContent) : Prop where
  publication : pin.publication = id
  document : pin.documentId = entry.1.id
  content : pin.content.id = entry.2
  library : pin.content.library = library
  held : pin.content ∈ canonical.contents

/-- What a claim pins: one content for each document of a library, nothing for other sources. -/
def PinsOf (canonical : Canonical) (id : PublicationId) : Snapshot → List PublicationContent → Prop
  | .fileLibrary library, contents => List.Forall₂ (PinOf canonical id library.library.id) library.documents contents
  | _, contents => contents = []

/-- The scopes whose revision a call advances. -/
def Call.marks : Call → ScopeKey → Prop
  | .markDirty target _, key => key.target = target
  | _, _ => False

/-- Scope rows keep their keys, and their revisions but for the file datasets and the marked
keys; a new row has a new key. -/
def ScopesKept (marks : ScopeKey → Prop) (scopes : Table Scope) : Table Scope → Prop :=
  Table.Evolve (fun s t => t.key = s.key ∧ (s.key.target.datasetTypeCode.isFileDataset = false → ¬marks s.key →
    t.sourceRevision = s.sourceRevision)) (fun t => ∀ i s, scopes.find i = some s → s.key ≠ t.key) scopes

theorem ScopesKept.refl (marks : ScopeKey → Prop) (scopes : Table Scope) : ScopesKept marks scopes scopes :=
  Table.Evolve.refl fun _ => ⟨rfl, fun _ _ => rfl⟩

theorem ScopesKept.modify {marks : ScopeKey → Prop} {scopes : Table Scope} {i : ScopeId} {f : Scope → Scope}
    (hf : ∀ s, scopes.find i = some s → (f s).key = s.key ∧
      (s.key.target.datasetTypeCode.isFileDataset = false → ¬marks s.key → (f s).sourceRevision = s.sourceRevision)) :
    ScopesKept marks scopes (scopes.modify i f) :=
  Table.Evolve.modify (fun _ => ⟨rfl, fun _ _ => rfl⟩) hf

/-- One elementary write of a publication service, with what its transaction checked; `marks`
are the scopes it may advance. -/
inductive Write (cfg : Config) (env : Env) (marks : ScopeKey → Prop) (db : Db) : Db → Prop
  | free {db' : Db} (hp : db'.publications = db.publications) (hk : db'.keyGrants = db.keyGrants)
      (hg : db'.generationKeyGrants = db.generationKeyGrants) (hd : DocumentSteps db.documents db'.documents)
      (hc : db'.documents.contents = db.documents.contents) (hs : ScopesKept marks db.scopes db'.scopes) :
      Write cfg env marks db db'
  | insert {p : Publication} (hst : p.status = .staged) (hpend : p.artifactStatus = .pending) :
      Write cfg env marks db { db with publications := db.publications.insert p }
  | claim {p pub snapshot d contents} {f : Publication → Publication} (hp : db.publications.find p = some pub)
      (hst : pub.status = .staged) (hf : (f pub).status = .building) (h1 : (f pub).scopeState = pub.scopeState)
      (h2 : (f pub).key = pub.key) (h3 : (f pub).versionNumber = pub.versionNumber)
      (h4 : (f pub).schemaVersion = pub.schemaVersion) (h5 : (f pub).artifact = pub.artifact)
      (h6 : (f pub).artifactStatus = pub.artifactStatus) (hs : (f pub).sourceSnapshot = some snapshot)
      (hsource : currentSource cfg env pub.key.target = .ok (snapshot, d))
      (hmarks : ∀ key, ¬marks key) (hrev : pub.key.target.datasetTypeCode.isFileDataset = false →
        ∃ s, db.scopes.find pub.scopeState = some s ∧ s.key = pub.key ∧ (f pub).sourceRevision = s.sourceRevision)
      (hpins : PinsOf env.canonical p snapshot contents) :
      Write cfg env marks db ((db.modifyPublication p f).pinned contents)
  | row {p pub} {db' : Db} {f : Publication → Publication} (hp : db.publications.find p = some pub)
      (hpubs : db'.publications = db.publications.modify p f) (hd : db'.documents = db.documents)
      (hk : GrantsRevoked db.keyGrants db'.keyGrants)
      (hg : GrantsRevoked db.generationKeyGrants db'.generationKeyGrants) (he : Evolves db.documents p pub (f pub))
      (hw : Leaves pub (f pub) → AllRevoked db'.keyGrants p ∧
        (pub.key.target.datasetTypeCode.isFileDataset = false → AllRevoked db'.generationKeyGrants p))
      (hkeeps : pub.Keeps (f pub)) (hs : db'.scopes = db.scopes) : Write cfg env marks db db'
  | release {p pub} (code : DatasetTypeCode) (hp : db.publications.find p = some pub)
      (hst : pub.status.isReleasable = true) : Write cfg env marks db (db.release p code)

variable {marks : ScopeKey → Prop}

theorem Write.effect (h : Write cfg env marks db db') : Effect db db' := by
  cases h with
  | free hp hk hg hd hc hs => exact .of_documents hp hk hg hd
  | insert hst hpend => exact .insert hst hpend
  | claim hp hst hf h1 h2 h3 h4 h5 h6 hs hsource hmarks hrev hpins =>
    exact (Effect.staged hp hst h1 h2 h3 h4 h5 h6).trans (.of_documents rfl rfl rfl (.single (.pin _)))
  | row hp hpubs hd hk hg he hw hkeeps hs => exact .row hp hpubs (hd ▸ .refl) hk hg (hd ▸ he) hw
  | release code hp hst => exact .release _ code

theorem Write.scopes (h : Write cfg env marks db db') : ScopesKept marks db.scopes db'.scopes := by
  cases h with
  | free hp hk hg hd hc hs => exact hs
  | row hp hpubs hd hk hg he hw hkeeps hs =>
    rw [hs]
    exact .refl _ _
  | release code hp hst => exact .refl marks db.scopes
  | _ => exact .refl marks db.scopes

/-- A transaction is a sequence of writes. -/
def Writes (cfg : Config) (env : Env) (marks : ScopeKey → Prop) : Db → Db → Prop :=
  Relation.ReflTransGen (Write cfg env marks)

namespace Writes

theorem refl (db : Db) : Writes cfg env marks db db := Relation.ReflTransGen.refl

theorem trans {db'' : Db} (h : Writes cfg env marks db db') (h' : Writes cfg env marks db' db'') : Writes cfg env marks db db'' :=
  Relation.ReflTransGen.trans h h'

theorem single (h : Write cfg env marks db db') : Writes cfg env marks db db' := Relation.ReflTransGen.single h

instance : IsPreorder Db (Writes cfg env marks) where
  refl := refl
  trans _ _ _ := trans

theorem effect (h : Writes cfg env marks db db') : Effect db db' := by
  induction h with
  | refl => exact .refl db
  | tail _ step ih => exact ih.trans step.effect

theorem scope (h : Writes cfg env marks db db') {i : ScopeId} {s : Scope} (hs : db.scopes.find i = some s) :
    ∃ t, db'.scopes.find i = some t ∧ t.key = s.key ∧
      (s.key.target.datasetTypeCode.isFileDataset = false → ¬marks s.key → t.sourceRevision = s.sourceRevision) := by
  induction h with
  | refl => exact ⟨s, hs, rfl, fun _ _ => rfl⟩
  | tail _ step ih =>
    obtain ⟨t, ht, hkey, hrev⟩ := ih
    obtain ⟨u, hu, hkey', hrev'⟩ := step.scopes.rows ht
    rw [hkey] at hrev'
    exact ⟨u, hu, hkey'.trans hkey, fun hf hm => (hrev' hf hm).trans (hrev hf hm)⟩

/-- Scopes, jobs, activations and callbacks are free. -/
theorem free (hp : db'.publications = db.publications) (hk : db'.keyGrants = db.keyGrants)
    (hg : db'.generationKeyGrants = db.generationKeyGrants) (hd : db'.documents = db.documents)
    (hs : ScopesKept marks db.scopes db'.scopes) : Writes cfg env marks db db' :=
  single (.free hp hk hg (hd ▸ .refl) (by rw [hd]) hs)

/-- A scope is advanced where that is allowed. -/
theorem advanceScope {i : ScopeId} {f : Scope → Scope} (hf : ∀ s, db.scopes.find i = some s → (f s).key = s.key ∧
      (s.key.target.datasetTypeCode.isFileDataset = false → ¬marks s.key → (f s).sourceRevision = s.sourceRevision)) :
    Writes cfg env marks db (db.modifyScope i f) := free rfl rfl rfl rfl (.modify hf)

theorem modifyScope (i : ScopeId) {f : Scope → Scope} (hf : ∀ s, (f s).key = s.key ∧ (f s).sourceRevision = s.sourceRevision) :
    Writes cfg env marks db (db.modifyScope i f) :=
  advanceScope fun s _ => ⟨(hf s).1, fun _ _ => (hf s).2⟩

theorem modifyJob (j : JobId) (f : Job → Job) : Writes cfg env marks db (db.modifyJob j f) :=
  free rfl rfl rfl rfl (.refl _ _)

/-- The document rows of a closed attempt are released. -/
theorem release {p : PublicationId} {pub : Publication} (code : DatasetTypeCode)
    (hp : db.publications.find p = some pub) (hst : pub.status.isReleasable = true) :
    Writes cfg env marks db (db.release p code) := single (.release code hp hst)

theorem register (callback : Callback) : Writes cfg env marks db (db.register callback) :=
  free rfl rfl rfl rfl (.refl _ _)

theorem undelivered {p : PublicationId} {pub : Publication} {f : Publication → Publication}
    (hp : db.publications.find p = some pub) (h : pub.status ≠ .published) (h' : pub.status ≠ .superseded)
    (he : Evolves db.documents p pub (f pub)) (hkeeps : pub.Keeps (f pub)) :
    Writes cfg env marks db (db.modifyPublication p f) :=
  single (.row hp rfl rfl (.refl _) (.refl _) he (fun hl => absurd hl (not_leaves h h')) hkeeps rfl)

/-- A staged attempt may be rewritten within its identity, or cancelled. -/
theorem staged {p : PublicationId} {pub : Publication} {f : Publication → Publication}
    (hp : db.publications.find p = some pub) (hst : pub.status = .staged)
    (hn : (f pub).status.isHeld = false) (h1 : (f pub).scopeState = pub.scopeState)
    (h2 : (f pub).key = pub.key) (h3 : (f pub).versionNumber = pub.versionNumber)
    (h4 : (f pub).schemaVersion = pub.schemaVersion) (h5 : (f pub).artifact = pub.artifact)
    (h6 : (f pub).artifactStatus = pub.artifactStatus) : Writes cfg env marks db (db.modifyPublication p f) := by
  refine undelivered hp ?_ ?_ (.of_columns (by rw [hst]; rfl) h1 h2 h3 h4 h5 h6) fun hf => ?_
  · rw [hst]
    decide
  · rw [hst]
    decide
  · rw [hn] at hf
    cases hf

end Writes

end FireDash.Publications
