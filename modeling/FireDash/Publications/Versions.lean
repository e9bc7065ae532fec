import FireDash.Publications.System

/-! Version numbers and the immutable part of publication rows, along every run. -/
namespace FireDash.Publications

open Tx

section Rows

variable {cfg : Config} {l : Licence} {purge purge' : Prop} {c d : Core}

theorem Row.mono {p q : Publication} (h : Row purge p q) (hp : purge → purge') : Row purge' p q where
  scopeState := h.scopeState
  key := h.key
  versionNumber := h.versionNumber
  sourceRevision := h.sourceRevision
  left_staged := h.left_staged
  finished := h.finished
  obsolete := h.obsolete
  fingerprint := h.fingerprint
  artifact := h.artifact
  snapshot hf := (h.snapshot hf).imp id fun ⟨hn, hw⟩ => ⟨hn, hw.imp id hp⟩

/-- Every row of `t` is still a row of `t'`, with its immutable part. -/
def Keeps (purge : Prop) (t t' : Table Publication) : Prop :=
  ∀ p pub, t.find p = some pub → ∃ pub', t'.find p = some pub' ∧ Row purge pub pub'

theorem Keeps.refl (t : Table Publication) : Keeps purge t t :=
  fun _ _ hp => ⟨_, hp, .refl _⟩

theorem Keeps.trans {t₁ t₂ t₃ : Table Publication} (h : Keeps purge t₁ t₂) (h' : Keeps purge t₂ t₃) :
    Keeps purge t₁ t₃ := by
  intro p pub hp
  obtain ⟨pub₂, hp₂, hr₂⟩ := h p pub hp
  obtain ⟨pub₃, hp₃, hr₃⟩ := h' p pub₂ hp₂
  exact ⟨pub₃, hp₃, hr₂.trans hr₃⟩

theorem Keeps.modify {t : Table Publication} {p : PublicationId} {pub : Publication}
    {f : Publication → Publication} (hp : t.find p = some pub) (hr : Row purge pub (f pub)) :
    Keeps purge t (t.modify p f) := by
  intro q r hq
  by_cases hqp : p = q
  · subst hqp
    have hrp : r = pub := Option.some.inj (hq.symm.trans hp)
    exact ⟨f pub, by simp [hp], hrp ▸ hr⟩
  · exact ⟨r, by simp [hqp, hq], .refl r⟩

theorem Keeps.insert (t : Table Publication) (pub : Publication) : Keeps purge t (t.insert pub) := by
  intro q r hq
  have hne : q ≠ t.nextId := (Table.lt_nextId_of_find hq).ne
  exact ⟨r, by simp [hne, hq], .refl r⟩

/-- Superseding the current publication changes nothing but its state. -/
theorem Keeps.superseded (h : Inv c) {i : ScopeId} {s : Scope} (hs : c.scopes.find i = some s) :
    Keeps purge c.publications (c.superseded s.currentPublishedPublication) := by
  cases hc : s.currentPublishedPublication with
  | none => exact .refl _
  | some q =>
    obtain ⟨pub, hq, -, hst⟩ := h.current_published hs hc
    have hrow : Row purge pub { pub with status := .superseded } :=
      .of_finished rfl (fun ho => by rw [hst] at ho; cases ho) rfl rfl rfl rfl rfl rfl (.inl rfl)
    exact .modify (f := fun row => { row with status := .superseded }) hq hrow

/-- The pointer of a scope moves to another row. -/
theorem Keeps.switch (h : Inv c) {i : ScopeId} {s : Scope} {p : PublicationId} {pub : Publication}
    {f : Publication → Publication} (hs : c.scopes.find i = some s) (hp : c.publications.find p = some pub)
    (hst : pub.status ≠ .published) (hr : Row purge pub (f pub)) :
    Keeps purge c.publications ((c.superseded s.currentPublishedPublication).modify p f) := by
  have hne := h.current_ne hs hp hst
  have hrow : (c.superseded s.currentPublishedPublication).find p = some pub := by
    have hfind := Core.find_superseded_modify (c := c) hne id p
    simp only [Table.find_modify, if_true, hp, Option.map_some, id_eq, Option.map_id_fun] at hfind
    exact hfind
  exact (Keeps.superseded h hs).trans (.modify hrow hr)

/-- What any move does to the publication rows that exist. -/
theorem Move.keeps (m : Move cfg l c d) (h : Inv c) : Keeps l.purge c.publications d.publications := by
  cases m with
  | scope hs hk hc hf => exact .refl _
  | newScope hk hn => exact .refl _
  | newJob hs hi hk hj hb ha hn => exact .refl _
  | newPublication hl hs hi hk hp hv => exact .insert _ _
  | job hj hk hs hst ha hb => exact .refl _
  | closeJob hj ha hk hs hst hb => exact .refl _
  | staged hp hst hr hn => exact .modify hp hr
  | claim hl m => exact .modify m.publication m.row
  | endBuild hl hf hr m => exact .modify m.publication m.row
  | publish hl m => exact .switch h m.scope m.publication (by rw [m.building]; decide) m.row
  | activate hl m =>
    refine .switch h m.scope m.publication (fun he => ?_) m.row
    have hh := m.historical
    rw [he] at hh
    cases hh
  | retire hl hp hst hr hf => exact .modify hp hr

theorem Steps.keeps (m : Steps cfg l c d) (h : Inv c) : Keeps l.purge c.publications d.publications := by
  induction m with
  | refl => exact .refl _
  | tail hs m ih => exact ih.trans (m.keeps (Steps.inv hs h))

end Rows

/-- Within a scope, later rows have higher versions. -/
def VersionsIncrease (t : Table Publication) : Prop :=
  ∀ p q pub pub', t.find p = some pub → t.find q = some pub' → pub.scopeState = pub'.scopeState → p < q →
    pub.versionNumber < pub'.versionNumber

section Versions

variable {cfg : Config} {l : Licence} {purge : Prop} {c d : Core}

/-- Rewriting existing rows within their identity keeps the order of versions. -/
theorem VersionsIncrease.of_keeps {t t' : Table Publication} (h : VersionsIncrease t) (hk : Keeps purge t t')
    (hn : t'.nextId = t.nextId) : VersionsIncrease t' := by
  have hback : ∀ {p pub'}, t'.find p = some pub' → ∃ pub, t.find p = some pub ∧
      pub'.scopeState = pub.scopeState ∧ pub'.versionNumber = pub.versionNumber := by
    intro p pub' hp'
    have hlt : p < t.nextId := hn ▸ Table.lt_nextId_of_find hp'
    have hp : t.find p = some t.rows[p] := List.getElem?_eq_getElem hlt
    obtain ⟨r, hr, hrow⟩ := hk p _ hp
    have hrp : r = pub' := Option.some.inj (hr.symm.trans hp')
    subst hrp
    exact ⟨_, hp, hrow.scopeState, hrow.versionNumber⟩
  intro p q pub pub' hp hq hs hlt
  obtain ⟨a, ha, hsa, hva⟩ := hback hp
  obtain ⟨b, hb, hsb, hvb⟩ := hback hq
  rw [hva, hvb]
  exact h p q a b ha hb (by rw [← hsa, hs, hsb]) hlt

/-- Only minting moves add a row. -/
theorem Move.nextId (m : Move cfg l c d) :
    d.publications.nextId = c.publications.nextId ∨ l.mint ∧ ∃ pub : Publication,
      d.publications = c.publications.insert pub ∧ ∀ {k q}, c.publications.find k = some q →
        q.scopeState = pub.scopeState → q.versionNumber < pub.versionNumber := by
  cases m with
  | @newPublication i s pub hl hs hi hk hp hv =>
    exact .inr ⟨hl, pub, rfl, fun hq he => hv hq (he.trans hi)⟩
  | publish hl m =>
    left
    simp only [Table.nextId_modify, Core.superseded]
    split <;> simp
  | activate hl m =>
    left
    simp only [Table.nextId_modify, Core.superseded]
    split <;> simp
  | scope | newScope | newJob | job | closeJob => exact .inl rfl
  | staged | claim | endBuild | retire => exact .inl (Table.nextId_modify _ _ _)

theorem Move.versionsIncrease (m : Move cfg l c d) (h : Inv c) (hv : VersionsIncrease c.publications) :
    VersionsIncrease d.publications := by
  rcases m.nextId with hn | ⟨-, pub, hd, hnew⟩
  · exact hv.of_keeps (m.keeps h) hn
  · rw [hd]
    intro p q a b hp hq hs hlt
    have hqle : q < c.publications.nextId + 1 := by
      have := Table.lt_nextId_of_find hq
      rwa [Table.nextId_insert] at this
    have hpne : p ≠ c.publications.nextId := by omega
    rw [Table.find_insert, if_neg hpne] at hp
    by_cases hqn : q = c.publications.nextId
    · rw [Table.find_insert, if_pos hqn] at hq
      cases hq
      exact hnew hp hs
    · rw [Table.find_insert, if_neg hqn] at hq
      exact hv p q a b hp hq hs hlt

theorem Steps.versionsIncrease (m : Steps cfg l c d) (h : Inv c) (hv : VersionsIncrease c.publications) :
    VersionsIncrease d.publications := by
  induction m with
  | refl => exact hv
  | tail hs m ih => exact m.versionsIncrease (Steps.inv hs h) ih

/-- A transaction without the licence to mint allocates no version. -/
theorem Steps.nextId (m : Steps cfg l c d) (hl : ¬l.mint) : d.publications.nextId = c.publications.nextId := by
  induction m with
  | refl => rfl
  | tail _ m ih =>
    rcases m.nextId with hn | ⟨hmint, -⟩
    · exact hn.trans ih
    · exact absurd hmint hl

end Versions

variable {cfg : Config} {env : Env} {db : Db}

/-- Retention is the one call that may clear the snapshot of an attempt it keeps. -/
def Call.isRetention : Call → Bool
  | processCandidate .. => true
  | _ => false

theorem Call.purge_isRetention {call : Call} (h : (call.licence env db).purge) : call.isRetention = true := by
  cases call <;> first | rfl | exact h.elim

theorem Call.nextId (call : Call) (h : Inv db.core) (hl : ¬(call.licence env db).mint) :
    (exec (call.run cfg env) db).publications.nextId = db.publications.nextId :=
  (call.steps h).nextId hl

theorem reachable_versionsIncrease (h : (system cfg).Reachable db) : VersionsIncrease db.publications := by
  have hboth : Inv db.core ∧ VersionsIncrease db.publications := by
    refine h.invariant (I := fun db : Db => Inv db.core ∧ VersionsIncrease db.publications)
      (fun db hm => ⟨Migrated.inv hm, fun _ _ _ _ => Migrated.versions hm⟩) ?_
    rintro db ⟨env, call⟩ _ ⟨hinv, hv⟩ rfl
    exact ⟨(call.steps hinv).inv hinv, (call.steps hinv).versionsIncrease hinv hv⟩
  exact hboth.2

theorem runCalls_keeps (h : (system cfg).Reachable db) (calls : List (Env × Call)) :
    Keeps (∃ a ∈ calls, a.2.isRetention = true) db.publications (runCalls cfg db calls).publications := by
  induction calls generalizing db with
  | nil => exact .refl _
  | cons a rest ih =>
    have hinv := inv_of_reachable h
    intro p pub hp
    have hsteps : Steps cfg (a.2.licence a.1 db) db.core (exec (a.2.run cfg a.1) db).core := a.2.steps hinv
    obtain ⟨pub₁, hp₁, hr₁⟩ := hsteps.keeps hinv p pub hp
    obtain ⟨pub₂, hp₂, hr₂⟩ := ih (reachable_step h a.1 a.2) p pub₁ hp₁
    refine ⟨pub₂, hp₂, (hr₁.mono fun hpurge => ?_).trans (hr₂.mono fun ⟨b, hb, hbr⟩ => ?_)⟩
    · exact ⟨a, List.mem_cons_self, Call.purge_isRetention hpurge⟩
    · exact ⟨b, List.mem_cons_of_mem _ hb, hbr⟩

/-- A rollback that returns made the version it names current. -/
theorem rollback_reactivates (h : Inv db.core) {actor : Actor} {p : PublicationId} {db' : Db}
    (hr : rollbackPublication env actor p db = (.ok (), db')) :
    ∃ pub i s', db.publications.find p = some pub ∧ pub.status = .superseded ∧ pub.scopeState = i ∧
      db'.scopes.find i = some s' ∧ s'.currentPublishedPublication = some p := by
  obtain ⟨pub, i, s, m, hst, -, rfl⟩ := (wp_rollbackPublication h).of_ok hr
  refine ⟨pub, i, { s with currentPublishedPublication := some p }, m.publication, hst, m.publication_scope, ?_, rfl⟩
  rw [Db.switchTo_scopes h m.scope]
  simp [Db.core, m.scope]

/-- A deletion of the active version that returns made an older existing version current. -/
theorem delete_reactivates (h : Inv db.core) {actor : Actor} {p : PublicationId} {pub : Publication} {db' : Db}
    (hp : db.publications.find p = some pub) (hst : pub.status = .published)
    (hr : deletePublication env actor p db = (.ok (), db')) :
    ∃ q predecessor s', db.publications.find q = some predecessor ∧ predecessor.status = .superseded ∧
      predecessor.versionNumber < pub.versionNumber ∧ db'.scopes.find pub.scopeState = some s' ∧
      s'.currentPublishedPublication = some q := by
  cases (wp_deletePublication h).of_ok hr with
  | superseded m hst' =>
    have he := Option.some.inj (hp.symm.trans m.publication)
    rw [he, hst'] at hst
    cases hst
  | @active pub' i s q predecessor m hst' hc m' hq he =>
    obtain rfl := Option.some.inj (hp.symm.trans m.publication)
    obtain ⟨-, -, -, hv⟩ := Db.eligiblePredecessor_some he
    have hscope : (db.switchTo env.now actor i s q .rollback (Publication.reactivated env.now actor)).scopes.find i
        = some { s with currentPublishedPublication := some q } := by
      rw [Db.switchTo_scopes h m.scope]
      simp [Db.core, m.scope]
    refine ⟨q, predecessor, Scope.forgetBuilt p { s with currentPublishedPublication := some q }, m'.publication, hq,
      hv, ?_, ?_⟩
    · rw [m.publication_scope, Db.retired, Db.scheduleRemoval_scopes]
      change ((db.switchTo env.now actor i s q .rollback
        (Publication.reactivated env.now actor)).scopes.modify i (Scope.forgetBuilt p)).find i = _
      simp [hscope]
    · unfold Scope.forgetBuilt
      split <;> rfl

/-- From any reachable state, whatever calls follow: versions increase and are never
handed out again, rows keep their immutable part, and a rollback or a deletion makes
existing versions current without minting one. -/
theorem publication_history (h : (system cfg).Reachable db) (calls : List (Env × Call)) :
    VersionsIncrease (runCalls cfg db calls).publications ∧
    Keeps (∃ a ∈ calls, a.2.isRetention = true) db.publications (runCalls cfg db calls).publications ∧
    (∀ p q pub pub', db.publications.find p = some pub → db.publications.find q = none →
      (runCalls cfg db calls).publications.find q = some pub' → pub.scopeState = pub'.scopeState →
      pub.versionNumber < pub'.versionNumber) ∧
    ∀ env actor p db',
      (rollbackPublication env actor p db = (.ok (), db') → db'.publications.nextId = db.publications.nextId ∧
        ∃ pub s', db.publications.find p = some pub ∧ pub.status = .superseded ∧
          db'.scopes.find pub.scopeState = some s' ∧ s'.currentPublishedPublication = some p) ∧
      (deletePublication env actor p db = (.ok (), db') → db'.publications.nextId = db.publications.nextId ∧
        ∀ pub, db.publications.find p = some pub → pub.status = .published →
          ∃ q predecessor s', db.publications.find q = some predecessor ∧ predecessor.status = .superseded ∧
            predecessor.versionNumber < pub.versionNumber ∧ db'.scopes.find pub.scopeState = some s' ∧
            s'.currentPublishedPublication = some q) := by
  have hinv := inv_of_reachable h
  have hkeeps := runCalls_keeps h calls
  have hincrease := reachable_versionsIncrease (reachable_runCalls h calls)
  refine ⟨hincrease, hkeeps, fun p q pub pub' hp hq hq' hs => ?_, fun env actor p db' => ⟨fun hr => ?_, fun hr => ?_⟩⟩
  · obtain ⟨r, hr, hrow⟩ := hkeeps p pub hp
    have hlt : p < q := by
      have hpn := Table.lt_nextId_of_find hp
      have hqn : db.publications.nextId ≤ q := List.getElem?_eq_none_iff.mp hq
      omega
    rw [← hrow.versionNumber]
    exact hincrease p q r pub' hr hq' (hrow.scopeState.trans hs) hlt
  · obtain ⟨pub, i, s', hp, hst, rfl, hs', hc⟩ := rollback_reactivates hinv hr
    have hn : (exec ((Call.rollbackPublication actor p).run cfg env) db).publications.nextId = db.publications.nextId :=
      Call.nextId _ hinv id
    simp only [Call.run, exec, hr] at hn
    exact ⟨hn, pub, s', hp, hst, hs', hc⟩
  · have hn : (exec ((Call.deletePublication actor p).run cfg env) db).publications.nextId = db.publications.nextId :=
      Call.nextId _ hinv id
    simp only [Call.run, exec, hr] at hn
    exact ⟨hn, fun pub hp hst => delete_reactivates hinv hp hst hr⟩

/-- Two builds of a phonebook, and a rollback to the first of them. -/
def publishedTwice : Db := runCalls sampleConfig {} (phonebookBuild 0 1 0 ++ phonebookBuild 1 2 1)

theorem publishedTwice_history :
    publishedTwice.publications.rows.map (fun p => (p.versionNumber, p.status)) =
        [(1, .superseded), (2, .published)] ∧
      VersionsIncrease (runCalls sampleConfig publishedTwice
        [(phonebookEnv 2 2, .rollbackPublication 7 0), (phonebookEnv 3 3, .markDirty phonebookTarget none)]).publications :=
  ⟨by decide +kernel, (publication_history (reachable_runCalls (.init Migrated.empty) _) _).1⟩

end FireDash.Publications
