import FireDash.Publications.State
import FireDash.Publications.System

/-! The two readings of dirtiness: the comparison the services make, which also accepts
the hash of a retained library snapshot, and the one the views make, which does not. -/
namespace FireDash.Publications

open Tx

variable {cfg : Config} {env : Env} {db : Db}

/-- A recorded fingerprint names the source of a publication by the hash of its retained
snapshot although the publication stores another one. -/
def Unaliased (cfg : Config) (fingerprint : Fingerprint) (pub : Publication) : Prop :=
  pub.sourceFingerprint.isSome = true ∧ fingerprint = publicationSourceFingerprint cfg pub ∧
    fingerprint ≠ pub.sourceFingerprint

/-- What is hashed and stored for a publication decides whether it is aliased. -/
theorem Unaliased.congr {fingerprint : Fingerprint} {p q : Publication} (hk : q.key = p.key)
    (hf : q.sourceFingerprint = p.sourceFingerprint) (hs : q.sourceSnapshot = p.sourceSnapshot)
    (h : Unaliased cfg fingerprint q) : Unaliased cfg fingerprint p := by
  have hlogical : publicationSourceFingerprint cfg q = publicationSourceFingerprint cfg p := by
    simp only [publicationSourceFingerprint, hk, hf, hs]
  obtain ⟨h1, h2, h3⟩ := h
  exact ⟨hf ▸ h1, h2.trans hlogical, hf ▸ h3⟩

/-- The two readings differ exactly at an unaliased current publication. -/
theorem scopeIsDirty_eq_dirty_iff (db : Db) (cfg : Config) (i : ScopeId) (s : Scope) :
    db.scopeIsDirty cfg s = (scopeStateInputs db i s).dirty ↔
      ∀ pub, db.currentPublication s = some pub → ¬Unaliased cfg s.currentSourceFingerprint pub := by
  unfold Db.scopeIsDirty scopeStateInputs Unaliased
  cases hc : db.currentPublication s with
  | none => simp
  | some pub =>
    cases hf : s.currentSourceFingerprint with
    | none =>
      cases hst : pub.sourceFingerprint with
      | none => simp [hst]
      | some stored =>
        have hsome : publicationSourceFingerprint cfg pub ≠ none := by
          unfold publicationSourceFingerprint
          split_ifs
          · split <;> simp [hst]
          · simp [hst]
        simp [hst, Ne.symm hsome]
    | some f =>
      cases hst : pub.sourceFingerprint with
      | none => simp [hst]
      | some stored => simp [hst, not_imp_not]

/-- No scope has an unaliased current publication. -/
def Core.Aliased (cfg : Config) (c : Core) : Prop :=
  ∀ i s pub, c.scopes.find i = some s → c.currentPublication s = some pub →
    ¬Unaliased cfg s.currentSourceFingerprint pub

section Moves

variable {l : Licence} {c d : Core}

/-- Writes that leave the published rows alone cannot break the alias. -/
theorem Core.Aliased.of_published (ha : c.Aliased cfg) (h : Inv c) (hs : d.scopes = c.scopes)
    (hp : ∀ q r, c.publications.find q = some r → r.status = .published → d.publications.find q = some r) :
    d.Aliased cfg := by
  intro i s pub hi hc
  rw [hs] at hi
  obtain ⟨q, hq, hrow⟩ := Option.bind_eq_some_iff.mp hc
  obtain ⟨r, hr, -, hst⟩ := h.current_published hi hq
  rw [hp q r hr hst] at hrow
  refine ha i s pub hi ?_
  simp only [Core.currentPublication, hq, Option.bind_some, hr]
  exact hrow

/-- A write to a row that is not published leaves the published rows alone. -/
theorem find_modify_of_published {t : Table Publication} {p : PublicationId} {pub : Publication}
    {f : Publication → Publication} (hp : t.find p = some pub) (hst : pub.status ≠ .published)
    (q : PublicationId) (r : Publication) (hq : t.find q = some r) (hr : r.status = .published) :
    (t.modify p f).find q = some r := by
  have hne : p ≠ q := by
    rintro rfl
    rw [Option.some.inj (hp.symm.trans hq)] at hst
    exact hst hr
  simp [hne, hq]

/-- The pointer of one scope moves to a row under which its fingerprint is aliased. -/
theorem Core.Aliased.of_switch (ha : c.Aliased cfg) (h : Inv c) {i : ScopeId} {s : Scope} {p : PublicationId}
    {pub : Publication} {f : Publication → Publication} {g : Scope → Scope} (hs : c.scopes.find i = some s)
    (hp : c.publications.find p = some pub) (hst : pub.status ≠ .published)
    (hcur : (g s).currentPublishedPublication = some p)
    (hnew : ¬Unaliased cfg (g s).currentSourceFingerprint (f pub)) {jobs : Table Job} :
    Core.Aliased cfg ⟨c.scopes.modify i g, (c.superseded s.currentPublishedPublication).modify p f, jobs⟩ := by
  have hfind := Core.find_superseded_modify (c := c) (h.current_ne hs hp hst) f
  intro k t r ht hc
  by_cases hk : i = k
  · subst hk
    have hts : t = g s := by
      simp only [Table.find_modify, if_true, hs, Option.map_some] at ht
      exact (Option.some.inj ht).symm
    subst hts
    simp only [Core.currentPublication, hcur, Option.bind_some, hfind, if_true, hp, Option.map_some] at hc
    exact Option.some.inj hc ▸ hnew
  · have ht' : c.scopes.find k = some t := by simpa [hk] using ht
    obtain ⟨q, hq, hrow⟩ := Option.bind_eq_some_iff.mp hc
    obtain ⟨r', hr', hrk, hrst⟩ := h.current_published ht' hq
    -- The current publication of another scope is neither the new row nor the old one.
    have hqp : p ≠ q := by
      rintro rfl
      rw [Option.some.inj (hp.symm.trans hr')] at hst
      exact hst hrst
    have hqs : s.currentPublishedPublication ≠ some q := by
      intro he
      obtain ⟨r'', hr'', hri, -⟩ := h.current_published hs he
      rw [Option.some.inj (hr''.symm.trans hr')] at hri
      exact hk (hri.symm.trans hrk)
    simp only [hfind, if_neg hqp, if_neg hqs] at hrow
    refine ha k t r ht' ?_
    simp only [Core.currentPublication, hq, Option.bind_some, hrow]

/-- What is recorded for the current publication is recorded under its stored fingerprint. -/
theorem not_unaliased_aliasFor (pub : Publication) (d : Digest) :
    ¬Unaliased cfg (aliasFor cfg (some pub) d) pub := by
  rintro ⟨hsome, hlogical, hne⟩
  unfold aliasFor at hlogical hne
  by_cases he : some d = publicationSourceFingerprint cfg pub
  · simp only [he, if_true] at hne
    obtain ⟨stored, hst⟩ := Option.isSome_iff_exists.mp hsome
    rw [hst] at hne
    exact hne rfl
  · simp only [if_neg he] at hlogical
    exact he hlogical

theorem Move.aliased (m : Move cfg l c d) (h : Inv c) (ha : c.Aliased cfg)
    (hl : ∀ p pub s, l.activate c p → c.publications.find p = some pub → c.scopes.find pub.scopeState = some s →
      ¬Unaliased cfg s.currentSourceFingerprint pub) : d.Aliased cfg := by
  cases m with
  | @scope i s f hs hk hc hf =>
    intro k t pub ht hcur
    by_cases hki : i = k
    · subst hki
      have hts : t = f s := by
        simp only [Table.find_modify, if_true, hs, Option.map_some] at ht
        exact (Option.some.inj ht).symm
      subst hts
      have hcur' : c.currentPublication s = some pub := by
        rw [← hcur]
        simp only [Core.currentPublication, hc]
      rcases hf with hsame | ⟨d, hd⟩
      · rw [hsame]
        exact ha i s pub hs hcur'
      · rw [hd, hcur']
        exact not_unaliased_aliasFor pub d
    · exact ha k t pub (by simpa [hki] using ht) hcur
  | @newScope key hk hn =>
    intro k t pub ht hcur
    simp only [Table.find_insert] at ht
    split_ifs at ht
    · cases ht
      cases hcur
    · exact ha k t pub ht hcur
  | newJob | job | closeJob => exact ha.of_published h rfl fun _ _ hq _ => hq
  | newPublication hl hs hi hk hp hv =>
    refine ha.of_published h rfl fun q r hq _ => ?_
    have hne : q ≠ c.publications.nextId := (Table.lt_nextId_of_find hq).ne
    simp [hne, hq]
  | staged hp hst hr hn =>
    exact ha.of_published h rfl (find_modify_of_published hp (by rw [hst]; decide))
  | claim hl m =>
    exact ha.of_published h rfl (find_modify_of_published m.publication (by rw [m.staged]; decide))
  | endBuild hl hf hr m =>
    exact ha.of_published h rfl (find_modify_of_published m.publication (by rw [m.building]; decide))
  | retire hl hp hst hr hf =>
    refine ha.of_published h rfl (find_modify_of_published hp fun he => ?_)
    rw [he] at hst
    cases hst
  | publish hl' m =>
    refine ha.of_switch h m.scope m.publication (by rw [m.building]; decide) m.current fun hu => ?_
    exact hu.2.2 (hu.2.1.trans m.logical)
  | activate hl' m =>
    have hfinished : ∀ {st : PublicationStatus}, st.isHistorical = true → st ≠ .published ∧ st.isFinished = true := by
      intro st hst
      cases st <;> simp_all [PublicationStatus.isHistorical, PublicationStatus.isFinished]
    obtain ⟨hne, hfin⟩ := hfinished m.historical
    refine ha.of_switch h m.scope m.publication hne m.current fun hu => ?_
    rw [m.fingerprint] at hu
    have hscope := m.scope
    rw [← m.publication_scope] at hscope
    exact hl _ _ _ hl' m.publication hscope (hu.congr m.row.key (m.row.fingerprint hfin) m.snapshot)

theorem Steps.aliased (m : Steps cfg l c d) (h : Inv c) (ha : c.Aliased cfg)
    (hl : ∀ c p pub s, l.activate c p → c.publications.find p = some pub → c.scopes.find pub.scopeState = some s →
      ¬Unaliased cfg s.currentSourceFingerprint pub) : d.Aliased cfg := by
  induction m with
  | refl => exact ha
  | @tail e d hs m ih => exact m.aliased (Steps.inv hs h) ih (hl e)

end Moves

/-- A call does not make a publication current whose snapshot the scope has recorded
under another fingerprint than the stored one. -/
def Call.ActivatesAliased (cfg : Config) (env : Env) (db : Db) (call : Call) : Prop :=
  ∀ p pub s, call.activates env db p → db.publications.find p = some pub →
    db.scopes.find pub.scopeState = some s → ¬Unaliased cfg s.currentSourceFingerprint pub

/-- Only the activating calls are licensed to activate, and from the state they find. -/
theorem Call.activates_of_licence {call : Call} {c : Core} {p : PublicationId}
    (h : (call.licence env db).activate c p) : c = db.core ∧ call.activates env db p := by
  cases call <;> first | exact h | exact h.elim

/-- In every run whose activations are aliased, the services and the views agree on
which scopes are dirty. -/
theorem scopeIsDirty_agrees
    (h : (system cfg).ReachableBy (fun db a => a.2.ActivatesAliased cfg a.1 db) db) {i : ScopeId} {s : Scope}
    (hs : db.scopes.find i = some s) : db.scopeIsDirty cfg s = (scopeStateInputs db i s).dirty := by
  have haliased : db.core.Aliased cfg := by
    refine h.invariant (I := fun db : Db => db.core.Aliased cfg) ?_ ?_
    · intro db hm i s pub hs hc hu
      exact hu.2.2 (Migrated.recorded hm hs hc hu.1 hu.2.1)
    · rintro db ⟨env, call⟩ _ hr ha hcond rfl
      refine (call.steps (inv_of_reachable hr)).aliased (inv_of_reachable hr) ha fun c p pub s hl hp hs => ?_
      obtain ⟨rfl, hact⟩ := Call.activates_of_licence hl
      exact hcond p pub s hact hp hs
  exact (scopeIsDirty_eq_dirty_iff db cfg i s).mpr fun pub hc => haliased i s pub hs hc

/-- The files of department 1, of an earlier release: version 1 froze the empty library and
version 2 one with a folder, each stored under a hash of the former snapshot format. -/
def legacyLibrary : Db :=
  let files : ScopeKey := ⟨.department, ⟨some 1, none, .departmentFiles⟩⟩
  let library (folders : List FolderRecord) : Snapshot :=
    .fileLibrary ⟨⟨1, "Documents", .department 1⟩, 0, folders, []⟩
  let version (number : ℕ) (stored : Digest) (snapshot : Snapshot) (status : PublicationStatus) : Publication :=
    { scopeState := 0
      key := files
      versionNumber := number
      schemaVersion := 2
      sourceRevision := 0
      sourceFingerprint := some stored
      sourceSnapshot := some snapshot
      status := status
      artifactReady := true
      artifactStatus := .ready
      createdAt := 0 }
  { scopes := ⟨[⟨files, 0, some 5, none, some 1, some 1⟩]⟩
    publications := ⟨[version 1 7 (library []) .superseded, version 2 5 (library [⟨1, "Plans", none⟩]) .published]⟩
    documents :=
      { generationKeys := [⟨0, List.replicate 40 0, "AES-KW-RFC3394", "1"⟩]
        manifests := [⟨0, ⟨"document-generation-v2", .departmentFiles, 0, 1, 2, [], none⟩, List.replicate 64 0,
          "Ed25519", "1"⟩] } }

/-- A rollback of the legacy library while its folder is still there. -/
theorem legacyLibrary_rollback_agrees :
    ∃ s, (exec ((Call.rollbackPublication 7 0).run sampleConfig { now := 1 }) legacyLibrary).scopes.find 0 = some s ∧
      s.currentPublishedPublication = some 0 ∧
      (exec ((Call.rollbackPublication 7 0).run sampleConfig { now := 1 }) legacyLibrary).scopeIsDirty sampleConfig s =
        (scopeStateInputs (exec ((Call.rollbackPublication 7 0).run sampleConfig { now := 1 }) legacyLibrary) 0 s).dirty := by
  refine ⟨⟨⟨.department, ⟨some 1, none, .departmentFiles⟩⟩, 0, some 5, none, some 1, some 0⟩, by decide +kernel, rfl,
    scopeIsDirty_agrees ((Machine.ReachableBy.init (show Migrated sampleConfig legacyLibrary by decide +kernel)).next
      (a := ({ now := 1 }, .rollbackPublication 7 0)) ?_ rfl) (by decide +kernel)⟩
  rintro p pub s ⟨rfl, -⟩ hp hs ⟨-, hlogical, -⟩
  obtain rfl : pub = _ := (Option.some.inj hp).symm
  obtain rfl : s = _ := (Option.some.inj hs).symm
  revert hlogical
  decide +kernel

/-- The folder is removed, the staged update deleted, and version 1 activated again. -/
theorem legacyLibrary_rollback_disagrees : ∃ db i s, (system sampleConfig).Reachable db ∧
    db.scopes.find i = some s ∧ db.scopeIsDirty sampleConfig s = false ∧ (scopeStateInputs db i s).dirty = true := by
  refine ⟨runCalls sampleConfig legacyLibrary
      [({ now := 1 }, .markDirty ⟨some 1, none, .departmentFiles⟩ none), ({ now := 2 }, .deleteStagedPublication 7 2),
        ({ now := 3 }, .rollbackPublication 7 0)],
    0, ⟨⟨.department, ⟨some 1, none, .departmentFiles⟩⟩, 0, some 0, some 1, some 1, some 0⟩,
    reachable_runCalls (.init (show Migrated sampleConfig legacyLibrary by decide +kernel)) _, ?_⟩
  decide +kernel

end FireDash.Publications
