import FireDash.Publications.System

/-! Consistency of scope pointers, publication states and build links in every state. -/
namespace FireDash.Publications

open Tx

variable {cfg : Config} {db : Db}

/-- The linked rows of every scope fit together. -/
structure Consistent (db : Db) : Prop where
  one_published : ∀ {p q pub pub'}, db.publications.find p = some pub → db.publications.find q = some pub' →
    pub.scopeState = pub'.scopeState → pub.status = .published → pub'.status = .published → p = q
  published_iff_current : ∀ {i s}, db.scopes.find i = some s → ∀ p,
    (∃ pub, db.publications.find p = some pub ∧ pub.scopeState = i ∧ pub.status = .published) ↔
      s.currentPublishedPublication = some p
  one_active : ∀ {j k a b}, db.jobs.find j = some a → db.jobs.find k = some b → a.scopeState = b.scopeState →
    a.status.isActive = true → b.status.isActive = true → j = k
  running_building : ∀ {j a}, db.jobs.find j = some a → a.status = .running →
    ∃ p pub, a.buildPublication = some p ∧ db.publications.find p = some pub ∧ pub.status = .building
  building_running : ∀ {p pub}, db.publications.find p = some pub → pub.status = .building →
    ∃! j, ∃ a, db.jobs.find j = some a ∧ a.status = .running ∧ a.buildPublication = some p

theorem Inv.published_unique {c : Core} (h : Inv c) {p q pub pub'} (hp : c.publications.find p = some pub)
    (hq : c.publications.find q = some pub') (hs : pub.scopeState = pub'.scopeState)
    (hst : pub.status = .published) (hst' : pub'.status = .published) : p = q := by
  obtain ⟨s, hs₁, hc₁⟩ := h.published_current hp hst
  obtain ⟨s', hs₂, hc₂⟩ := h.published_current hq hst'
  rw [hs, hs₂] at hs₁
  cases hs₁
  exact Option.some.inj (hc₁.symm.trans hc₂)

theorem Inv.consistent (h : Inv db.core) : Consistent db where
  one_published hp hq := h.published_unique hp hq
  published_iff_current {i s} hs p := by
    constructor
    · rintro ⟨pub, hp, rfl, hst⟩
      obtain ⟨s', hs', hc⟩ := h.published_current hp hst
      rw [Option.some.inj (hs.symm.trans hs')]
      exact hc
    · intro hc
      obtain ⟨pub, hp, hi, hst⟩ := h.current_published hs hc
      exact ⟨pub, hp, hi, hst⟩
  one_active ha hb := h.one_active ha hb
  running_building ha := h.running_building ha
  building_running hp hst := by
    obtain ⟨j, a, hj, hb, hr⟩ := h.building_running hp hst
    refine ⟨j, ⟨a, hj, hr, hb⟩, ?_⟩
    rintro k ⟨b, hk, -, hb'⟩
    exact h.build_injective hk hj hb' hb

/-- Every reachable state is consistent, and so is every state a poll leaves. -/
theorem reachable_consistent (h : (system cfg).Reachable db) :
    Consistent db ∧ ∀ env, Consistent (exec (claimNextJob cfg env) db) :=
  ⟨(inv_of_reachable h).consistent, fun env => (inv_of_reachable (reachable_claimNextJob h env)).consistent⟩

/-- A phonebook edit, its claim and a second edit while the first is building. -/
def editedDuringBuild : List (Env × Call) :=
  [(phonebookEnv 0 1, .markDirty phonebookTarget none), (phonebookEnv 1 1, .claimJob 0),
    (phonebookEnv 2 2, .markDirty phonebookTarget none)]

theorem editedDuringBuild_consistent :
    (runCalls sampleConfig {} editedDuringBuild).jobs.rows.map (·.status) = [.running] ∧
      Consistent (runCalls sampleConfig {} editedDuringBuild) :=
  ⟨by decide, (reachable_consistent (reachable_runCalls (.init Migrated.empty) editedDuringBuild)).1⟩

end FireDash.Publications
