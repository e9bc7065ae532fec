import FireDash.DangerousGoods.Agreement
import FireDash.DangerousGoods.Sources
import FireDash.Publications.Reconciliation
import FireDash.Publications.Refinement.Effects

/-! Source revisions stay aligned with the scope they belong to, over every run of previews,
applications and publication services. -/
namespace FireDash.DangerousGoods

open Publications (Actor DatasetSourceRevision Db Publication PublicationId Scope ScopeFor ScopeId ScopeKey Write Writes
  latestRevision)
open Tx

inductive Call where
  | createDangerousGoodsPreview (actor : Actor) (filename : String) (payload : List UInt8) (stored : Except Error Unit)
  | applyDangerousGoodsPreview (actor : Actor) (id : ℕ) (staged : Option (List UInt8))
  | cancelPreview (actor : Actor) (id : ℕ)
  | publication (call : Publications.Call)

/-- The transaction of a call, its result dropped. -/
def Call.run (cfg : Config) (env : Env) : Call → Service Unit
  | .createDangerousGoodsPreview actor filename payload stored => do
    let _ ← DangerousGoods.createDangerousGoodsPreview cfg env actor filename payload stored
  | .applyDangerousGoodsPreview actor id staged => DangerousGoods.applyDangerousGoodsPreview cfg env actor id staged
  | .cancelPreview actor id => DangerousGoods.cancelPreview env actor id
  | .publication call => publicationCall env fun e => call.run cfg.publications e

/-- No service but the application of a preview marks the curated source dirty. -/
def Call.Allowed : Call → Prop
  | .publication call => ¬call.marks systemKey
  | _ => True

/-- A database as an upgrade leaves it: no curated source was imported or built yet. -/
structure Initial (cfg : Config) (s : State) : Prop where
  migrated : Publications.Migrated cfg.publications s.publications
  unbuilt : ∀ id p, s.publications.publications.find id = some p → p.key ≠ systemKey
  revisions : s.revisions = []

def system (cfg : Config) : Machine State (Env × Call) where
  init := Initial cfg
  step s a t := a.2.Allowed ∧ t = exec (a.2.run cfg a.1) s

/-- A state some run reaches from `s`. -/
def Later (cfg : Config) : State → State → Prop := Relation.ReflTransGen fun s t => ∃ a, (system cfg).step s a t

/-- The revision the system scope records. -/
def State.revision (s : State) : ℕ :=
  match s.publications.scopeWithKey systemKey with
  | some found => found.2.sourceRevision
  | none => 0

/-! ### The latest revision -/

section

variable {revisions : List DatasetSourceRevision} {r : DatasetSourceRevision}

theorem latestRevision_mem (h : latestRevision revisions = some r) :
    r ∈ revisions ∧ ∀ r' ∈ revisions, r'.sourceRevision ≤ r.sourceRevision := by
  induction revisions generalizing r with
  | nil => cases h
  | cons a rest ih =>
    unfold latestRevision at h
    cases hrest : latestRevision rest with
    | none =>
      rw [hrest] at h
      cases h
      have hnil : rest = [] := Publications.latestRevision_eq_none.mp hrest
      subst hnil
      simp
    | some b =>
      obtain ⟨hmem, hmax⟩ := ih hrest
      rw [hrest] at h
      dsimp only at h
      split at h
      · rename_i hle
        cases h
        refine ⟨List.mem_cons_self, fun r' hr' => ?_⟩
        rcases List.mem_cons.mp hr' with rfl | hr'
        · exact le_refl _
        · exact (hmax r' hr').trans hle
      · rename_i hlt
        cases h
        refine ⟨List.mem_cons_of_mem _ hmem, fun r' hr' => ?_⟩
        rcases List.mem_cons.mp hr' with rfl | hr'
        · omega
        · exact hmax r' hr'

theorem latestRevision_append (h : ∀ r' ∈ revisions, r'.sourceRevision < r.sourceRevision) :
    latestRevision (revisions ++ [r]) = some r := by
  induction revisions with
  | nil => rfl
  | cons a rest ih =>
    have hrest := ih fun r' hr' => h r' (List.mem_cons_of_mem _ hr')
    have ha := h a List.mem_cons_self
    rw [List.cons_append]
    unfold latestRevision
    rw [hrest]
    dsimp only
    rw [if_neg (by omega)]

end

/-! ### Writes of the publication services -/

/-- The highest revision is the one the system scope records. -/
def Aligned (revisions : List DatasetSourceRevision) (db : Db) : Prop :=
  ∀ r, latestRevision revisions = some r →
    (∃ i scope, db.scopes.find i = some scope ∧ scope.key = systemKey) ∧
      ∀ i scope, db.scopes.find i = some scope → scope.key = systemKey → scope.sourceRevision = r.sourceRevision

/-- Every held attempt of the system scope was frozen on one of the revisions. -/
def Frozen (revisions : List DatasetSourceRevision) (db : Db) : Prop :=
  ∀ id p, db.publications.find id = some p → p.key = systemKey → p.status.isHeld = true →
    ∃ r ∈ revisions, p.sourceRevision = r.sourceRevision ∧ p.sourceSnapshot = some (.exactSource r.sha256)

section

variable {cfg : Publications.Config} {env : Publications.Env} {marks : ScopeKey → Prop} {db db' : Db}
  {revisions : List DatasetSourceRevision}

theorem Aligned.write (h : Aligned revisions db) (hm : ¬marks systemKey) (hw : Write cfg env marks db db') :
    Aligned revisions db' := by
  intro r hr
  obtain ⟨⟨i, scope, hs, hk⟩, hall⟩ := h r hr
  have hkept := hw.scopes
  constructor
  · obtain ⟨t, ht, hkey, -⟩ := hkept.rows hs
    exact ⟨i, t, ht, hkey.trans hk⟩
  · intro j t ht htk
    rcases hkept.old ht with hnew | ⟨scope', hs', hkey, hrev⟩
    · exact absurd (hk.trans htk.symm) (hnew i scope hs)
    · have hk' : scope'.key = systemKey := hkey ▸ htk
      rw [hrev (by rw [hk']; rfl) (by rwa [hk'])]
      exact hall j scope' hs' hk'

theorem currentSource_system {snapshot : Publications.Snapshot} {d : Publications.Digest}
    (h : Publications.currentSource cfg env systemTarget = .ok (snapshot, d)) :
    ∃ r, latestRevision env.canonical.dangerousGoods = some r ∧ snapshot = .exactSource r.sha256 := by
  simp only [Publications.currentSource, bind_eq_ok, pure_eq_ok, Prod.mk.injEq] at h
  obtain ⟨definition, hdef, payload, hpayload, rfl, -⟩ := h
  unfold Publications.buildSourcePayload at hpayload
  rw [Publications.getDatasetDefinition_code hdef] at hpayload
  simp only [systemTarget, Publications.dangerousGoodsSourcePayload, Option.isSome_none, Bool.false_eq_true, or_self,
    if_false] at hpayload
  split at hpayload
  · rename_i r hr
    exact ⟨r, hr, (pure_eq_ok.mp hpayload).symm⟩
  · exact absurd hpayload throw_ne_ok

theorem Frozen.write (h : Frozen revisions db) (ha : ¬marks systemKey → Aligned revisions db)
    (henv : env.canonical.dangerousGoods = revisions) (hw : Write cfg env marks db db') : Frozen revisions db' := by
  intro id q hq hk hheld
  cases hw with
  | free hp hkg hg hd hc hs => exact h id q (hp ▸ hq) hk hheld
  | release code hp hst => exact h id q hq hk hheld
  | insert hst hpend =>
    rw [Table.find_insert] at hq
    split at hq
    · cases hq
      rw [hst] at hheld
      cases hheld
    · exact h id q hq hk hheld
  | row hp hpubs hd hkg hg he hw hkeeps hs =>
    rw [hpubs, Table.find_modify] at hq
    split at hq
    · rename_i hi
      subst hi
      rw [hp] at hq
      cases hq
      obtain ⟨hpheld, hsnapshot, hrev⟩ := hkeeps hheld
      rw [hsnapshot, hrev]
      exact h _ _ hp (he.key ▸ hk) hpheld
    · exact h id q hq hk hheld
  | claim hp hst hf h1 h2 h3 h4 h5 h6 hs hsource hmarks hrev hpins =>
    have hq : (db.modifyPublication _ _).publications.find id = some q := hq
    rw [Publications.Db.modifyPublication, Table.find_modify] at hq
    split at hq
    · rename_i hi
      subst hi
      rw [hp] at hq
      cases hq
      rw [h2] at hk
      rw [hk] at hsource hrev
      obtain ⟨r, hr, rfl⟩ := currentSource_system hsource
      rw [henv] at hr
      obtain ⟨scope, hscope, hkey, hsame⟩ := hrev rfl
      refine ⟨r, (latestRevision_mem hr).1, ?_, hs⟩
      rw [hsame]
      exact (ha (hmarks _) r hr).2 _ scope hscope hkey
    · exact h id q hq hk hheld

theorem kept_of_writes (hf : Frozen revisions db) (ha : ¬marks systemKey → Aligned revisions db)
    (henv : env.canonical.dangerousGoods = revisions) (hw : Writes cfg env marks db db') :
    Frozen revisions db' ∧ (¬marks systemKey → Aligned revisions db') := by
  induction hw with
  | refl => exact ⟨hf, ha⟩
  | tail _ step ih => exact ⟨ih.1.write ih.2 henv step, fun hm => (ih.2 hm).write hm step⟩

end

/-! ### Services -/

/-- The publications are in order, the revisions are numbered and aligned with the system scope,
and every held attempt has its source among them. -/
structure Sound (cfg : Config) (s : State) : Prop where
  inv : Publications.Inv s.publications.core
  numbers : (s.revisions.map (·.sourceRevision)).Nodup
  digests : ∀ r ∈ s.revisions, r.sha256 = cfg.sha256 r.plaintext
  aligned : Aligned s.revisions s.publications
  frozen : Frozen s.revisions s.publications

section

variable {cfg : Config} {env : Env} {s t : State} {db : Db} {actor : Actor} {α : Type}

@[simp] theorem wp_publicationCall {x : Publications.Env → Publications.Service α} {Q : α → State → Prop}
    {E : Error → State → Prop} : wp (publicationCall env x) Q E s ↔
      wp (x (env.at s)) (fun a db => Q a { s with publications := db })
        (fun e db => E (.publication e) { s with publications := db }) s.publications := by
  unfold wp publicationCall
  cases x (env.at s) s.publications with
  | mk r db => cases r <;> rfl

theorem revision_of_find (h : Publications.Inv s.publications.core) {i : ScopeId} {scope : Scope}
    (hs : s.publications.scopes.find i = some scope) (hk : scope.key = systemKey) :
    s.revision = scope.sourceRevision := by
  unfold State.revision
  cases hfound : s.publications.scopeWithKey systemKey with
  | none =>
    have hno := Table.first_eq_none.mp hfound i scope hs
    simp only [decide_eq_false_iff_not] at hno
    exact absurd hk hno
  | some found =>
    obtain ⟨hs', hk'⟩ := Table.first_eq_some (i := found.1) (a := found.2) hfound
    simp only [decide_eq_true_eq] at hk'
    have hi : found.1 = i := h.scope_key hs' hs (hk'.trans hk.symm)
    rw [hi, hs] at hs'
    rw [Option.some.inj hs']

/-- The scope under its lock, with the state that may have gained it. -/
theorem wp_lockedDangerousGoodsScope (h : Sound cfg s) {Q : Scope → State → Prop} {E : Error → State → Prop}
    (hQ : ∀ i scope db, db.scopes.find i = some scope → scope.key = systemKey → scope.sourceRevision = s.revision →
      Sound cfg { s with publications := db } → Q scope { s with publications := db })
    (hE : ∀ e, E e s) : wp (lockedDangerousGoodsScope env) Q E s := by
  simp only [lockedDangerousGoodsScope, wp_bind, wp_publicationCall, wp_pure]
  have hkey : Publications.scopeFilter systemTarget = .ok systemKey := rfl
  refine Publications.wp_scopeOrNew hkey (fun i scope db hsf => ?_) fun e => hE _
  obtain ⟨hs, hk⟩ := hsf.find
  have hsteps : Publications.Steps cfg.publications {} s.publications.core db.core := hsf.steps
  have hinv : Publications.Inv db.core := hsteps.inv h.inv
  cases hsf with
  | existing hold =>
    exact hQ i scope _ hs hk (revision_of_find h.inv hold hk).symm h
  | created hf hn =>
    have hnone : latestRevision s.revisions = none := by
      cases hr : latestRevision s.revisions with
      | none => rfl
      | some r =>
        obtain ⟨⟨j, row, hrow, hkey⟩, -⟩ := h.aligned r hr
        exact absurd hkey (hn hrow)
    refine hQ _ _ _ hs hk ?_ ⟨hinv, h.numbers, h.digests, fun r hr => ?_, h.frozen⟩
    · unfold State.revision
      cases hfound : s.publications.scopeWithKey systemKey with
      | none => rfl
      | some found =>
        obtain ⟨hs', hk'⟩ := Table.first_eq_some (i := found.1) (a := found.2) hfound
        simp only [decide_eq_true_eq] at hk'
        exact absurd hk' (hn hs')
    · rw [hnone] at hr
      cases hr

/-- A dirty mark advances its scope by one. -/
theorem markDirty_advances {target : Publications.Target} {by' : Option Actor} {penv : Publications.Env} {db db' : Db}
    {pcfg : Publications.Config} {i j : ScopeId} {scope : Scope} (h : Publications.Inv db.core)
    (hfile : target.datasetTypeCode.isFileDataset = false) (hs : db.scopes.find i = some scope)
    (hkey : Publications.scopeFilter target = .ok scope.key)
    (hrun : Publications.markDirty pcfg penv target by' db = (.ok j, db')) :
    ∃ row, db'.scopes.find i = some row ∧ row.key = scope.key ∧ row.sourceRevision = scope.sourceRevision + 1 := by
  have hmarked : Publications.MarkedDirty pcfg penv {} target by' db j db' := (Publications.wp_markDirty h).of_ok hrun
  have hframe : Writes pcfg penv (fun key => key.target = target) db db' := by
    have hexec : Writes pcfg penv (fun key => key.target = target) db (exec (Publications.markDirty pcfg penv target by') db) :=
      (Publications.markDirty_frames target by').exec
    rwa [exec, hrun] at hexec
  obtain ⟨row, hrow, hrowkey, -⟩ := hframe.scope hs
  have hbumped : ∀ snapshot, scope.bumpedRevision snapshot = scope.sourceRevision + 1 := by
    intro snapshot
    refine Publications.refreshedRevision_eq ?_
    rw [show ({ scope with sourceRevision := scope.sourceRevision + 1 } : Scope).key.target = scope.key.target from rfl,
      Publications.scopeFilter_target hkey]
    exact hfile
  have hsame : ∀ {k key s db₀}, Publications.scopeFilter target = .ok key → ScopeFor db key k s db₀ → k = i ∧ s = scope := by
    intro k key s db₀ hk hsf
    rw [hkey] at hk
    cases hk
    cases hsf with
    | existing hs' hk' =>
      obtain rfl := h.scope_key hs' hs hk'
      rw [hs] at hs'
      exact ⟨rfl, (Option.some.inj hs').symm⟩
    | created hf hn => exact absurd rfl (hn hs)
  refine ⟨row, hrow, hrowkey, ?_⟩
  cases hmarked with
  | @dirty s key db₀ snapshot d r _ hk hsf hsource hd he =>
    obtain ⟨rfl, rfl⟩ := hsame hk hsf
    obtain ⟨u, hu, hrev⟩ := he.sourceRevision rfl (Publications.Db.find_setScope hsf.find.1 _)
    rw [hrow] at hu
    cases hu
    exact hrev.trans (hbumped snapshot)
  | @clean s key db₀ snapshot d t db₁ hk hsf hsource hd hsteps hc hkt hcur hlb =>
    obtain ⟨rfl, rfl⟩ := hsame hk hsf
    have ht : db₁.scopes.find j = some t := by
      rw [hc.scopes]
      exact Publications.Db.find_setScope hsf.find.1 t
    rw [Publications.Db.find_setScope ht] at hrow
    cases hrow
    exact hbumped snapshot

/-! ### The application of a preview -/

/-- A revision is found by its number, under any further condition it meets. -/
theorem find_revision {revisions : List DatasetSourceRevision} (hn : (revisions.map (·.sourceRevision)).Nodup)
    {r : DatasetSourceRevision} (hr : r ∈ revisions) {P : DatasetSourceRevision → Prop} [DecidablePred P] (hP : P r) :
    (revisions.find? fun r' => r'.sourceRevision = r.sourceRevision ∧ P r') = some r := by
  cases hfind : revisions.find? fun r' => r'.sourceRevision = r.sourceRevision ∧ P r' with
  | none =>
    have hno := List.find?_eq_none.mp hfind r hr
    simp [hP] at hno
  | some r' =>
    have hnumber := List.find?_some hfind
    simp only [decide_eq_true_eq] at hnumber
    rw [List.inj_on_of_nodup_map hn (List.mem_of_find?_eq_some hfind) hr hnumber.1]

/-- The row of the recorded revision is the latest one. -/
theorem Sound.current (h : Sound cfg s) :
    (s.revisions.find? fun r => r.sourceRevision = s.revision) = latestRevision s.revisions := by
  cases hr : latestRevision s.revisions with
  | none =>
    rw [Publications.latestRevision_eq_none.mp hr]
    rfl
  | some r =>
    obtain ⟨⟨i, scope, hs, hk⟩, hall⟩ := h.aligned r hr
    rw [revision_of_find h.inv hs hk, hall i scope hs hk]
    have hfind := find_revision h.numbers (latestRevision_mem hr).1 (P := fun _ => True) trivial
    simpa only [and_true] using hfind

theorem Sound.le_revision (h : Sound cfg s) {r : DatasetSourceRevision} (hr : r ∈ s.revisions) :
    r.sourceRevision ≤ s.revision := by
  cases hlatest : latestRevision s.revisions with
  | none =>
    rw [Publications.latestRevision_eq_none.mp hlatest] at hr
    cases hr
  | some c =>
    obtain ⟨⟨i, scope, hs, hk⟩, hall⟩ := h.aligned c hlatest
    rw [revision_of_find h.inv hs hk, hall i scope hs hk]
    exact (latestRevision_mem hlatest).2 r hr

/-- Revisions are only added, and a batch keeps its baseline. -/
structure Extends (cfg : Config) (s t : State) : Prop where
  sound : Sound cfg s → Sound cfg t
  revisions : s.revisions <+: t.revisions
  batches : ∀ {id b}, s.batches.find id = some b → ∃ b', t.batches.find id = some b' ∧ b'.baseline = b.baseline

theorem Extends.refl (s : State) : Extends cfg s s := ⟨id, List.prefix_refl _, fun hb => ⟨_, hb, rfl⟩⟩

theorem Extends.trans {u : State} (h : Extends cfg s t) (h' : Extends cfg t u) : Extends cfg s u where
  sound hs := h'.sound (h.sound hs)
  revisions := h.revisions.trans h'.revisions
  batches hb := by
    obtain ⟨b', hb', hbase⟩ := h.batches hb
    obtain ⟨b'', hb'', hbase'⟩ := h'.batches hb'
    exact ⟨b'', hb'', hbase'.trans hbase⟩

/-- What an application of `payload` leaves behind. -/
structure Installed (cfg : Config) (s : State) (payload : List UInt8) (t : State) : Prop where
  same : ∀ c, latestRevision s.revisions = some c → c.sha256 = cfg.sha256 payload → t.revisions = s.revisions
  new : (∀ c, latestRevision s.revisions = some c → c.sha256 ≠ cfg.sha256 payload) →
    ∃ r, t.revisions = s.revisions ++ [r] ∧ r.plaintext = payload ∧ r.sourceRevision = s.revision + 1 ∧
      t.revision = r.sourceRevision

theorem wp_readPreview {id : ℕ} {batch : ImportBatch} {staged : Option (List UInt8)} {Q : List UInt8 × ℕ × ℕ → State → Prop}
    {E : Error → State → Prop} (hQ : ∀ payload summary, staged = some payload →
      batch.uploadSha256 = some (cfg.sha256 payload) → Q (payload, summary) s) (hE : ∀ e t, E e t) :
    wp (readPreview cfg env id batch staged) Q E s := by
  unfold readPreview
  cases staged with
  | none =>
    simp only [wp_bind, wp_raise]
    exact wp_of_forall (fun _ _ _ => hE _ _) fun _ _ _ => hE _ _
  | some payload =>
    simp only [wp_ite, wp_bind, wp_raise]
    refine ⟨fun _ => wp_of_forall (fun _ _ _ => hE _ _) fun _ _ _ => hE _ _, fun hsha => ?_⟩
    rw [not_not] at hsha
    split
    · exact hE _ _
    · exact hE _ _
    · exact hQ _ _ rfl hsha.symm

/-- The scope is advanced to a revision that was added first. -/
theorem Sound.install (h : Sound cfg s) {r : DatasetSourceRevision} {db : Db} {i j : ScopeId} {scope : Scope}
    (hs : s.publications.scopes.find i = some scope) (hk : scope.key = systemKey)
    (hr : r.sourceRevision = s.revision + 1) (hsha : r.sha256 = cfg.sha256 r.plaintext)
    (hrun : Publications.markDirty cfg.publications (env.at { s with revisions := s.revisions ++ [r] }) systemTarget
      (some actor) s.publications = (.ok j, db)) :
    Sound cfg { s with publications := db, revisions := s.revisions ++ [r] } ∧
      ({ s with publications := db, revisions := s.revisions ++ [r] } : State).revision = r.sourceRevision := by
  have hlt : ∀ r' ∈ s.revisions, r'.sourceRevision < r.sourceRevision := by
    intro r' hr'
    have hle := h.le_revision hr'
    omega
  have hinv : Publications.Inv db.core := by
    have hmarked := (Publications.wp_markDirty (l := { mint := True }) h.inv).of_ok hrun
    exact (hmarked.steps trivial h.inv).inv h.inv
  obtain ⟨row, hrow, hrowkey, hrev⟩ := markDirty_advances h.inv rfl hs (hk ▸ rfl) hrun
  rw [hk] at hrowkey
  rw [← revision_of_find h.inv hs hk, ← hr] at hrev
  have hall : ∀ k row', db.scopes.find k = some row' → row'.key = systemKey → row'.sourceRevision = r.sourceRevision := by
    intro k row' hrow' hkey'
    obtain rfl := hinv.scope_key hrow' hrow (hkey'.trans hrowkey.symm)
    rw [hrow] at hrow'
    cases hrow'
    exact hrev
  have hmono : Frozen (s.revisions ++ [r]) s.publications := by
    intro id p hp hkey hheld
    obtain ⟨r', hmem, hfrozen⟩ := h.frozen id p hp hkey hheld
    exact ⟨r', List.mem_append_left _ hmem, hfrozen⟩
  have hframe : Writes cfg.publications (env.at { s with revisions := s.revisions ++ [r] })
      (fun key => key.target = systemTarget) s.publications db := by
    have hexec : Writes cfg.publications (env.at { s with revisions := s.revisions ++ [r] })
        (fun key => key.target = systemTarget) s.publications (exec (Publications.markDirty cfg.publications
          (env.at { s with revisions := s.revisions ++ [r] }) systemTarget (some actor)) s.publications) :=
      (Publications.markDirty_frames systemTarget (some actor)).exec
    rwa [exec, hrun] at hexec
  have hmarked : systemKey.target = systemTarget := rfl
  have hfrozen := (kept_of_writes hmono (fun hno => absurd hmarked hno) rfl hframe).1
  have hrevision := revision_of_find (s := { s with publications := db, revisions := s.revisions ++ [r] }) hinv hrow hrowkey
  refine ⟨⟨hinv, ?_, ?_, ?_, hfrozen⟩, hrevision.trans hrev⟩
  · rw [List.map_append, List.nodup_append]
    refine ⟨h.numbers, by simp, ?_⟩
    simp only [List.map_cons, List.map_nil, List.mem_singleton, forall_eq, List.mem_map, ne_eq, forall_exists_index, and_imp,
      forall_apply_eq_imp_iff₂]
    intro r' hr'
    exact (hlt r' hr').ne
  · intro r' hr'
    rcases List.mem_append.mp hr' with hr' | hr'
    · exact h.digests r' hr'
    · rw [List.mem_singleton.mp hr', hsha]
  · intro r' hr'
    rw [latestRevision_append hlt] at hr'
    cases hr'
    exact ⟨⟨i, row, hrow, hrowkey⟩, hall⟩

theorem Sound.of_batches (h : Sound cfg s) (batches : Table ImportBatch) : Sound cfg { s with batches := batches } :=
  ⟨h.inv, h.numbers, h.digests, h.aligned, h.frozen⟩

theorem batches_modify {id : ℕ} {f : ImportBatch → ImportBatch} (hf : ∀ b, (f b).baseline = b.baseline) {k : ℕ}
    {b : ImportBatch} (hb : s.batches.find k = some b) :
    ∃ b', (s.batches.modify id f).find k = some b' ∧ b'.baseline = b.baseline := by
  rw [Table.find_modify, hb]
  split
  · exact ⟨f b, rfl, hf b⟩
  · exact ⟨b, rfl, rfl⟩

/-- An application that returns has installed the staged bytes on the recorded revision, and one
that raises has changed nothing. -/
theorem wp_applyDangerousGoodsPreview (h : Sound cfg s) {id : ℕ} {staged : Option (List UInt8)} :
    wp (applyDangerousGoodsPreview cfg env actor id staged)
      (fun _ t => Extends cfg s t ∧ ∃ payload batch, staged = some payload ∧ s.batches.find id = some batch ∧
        batch.baseline = some s.revision ∧ Installed cfg s payload t) (fun _ t => t = s) s := by
  simp only [applyDangerousGoodsPreview, requireSystemAdmin, wp_atomic, wp_bind, wp_ensure, wp_get, wp_require, implies_true,
    and_true]
  intro _ batch hbatch _
  refine wp_readPreview (fun payload summary hstaged hsha => ?_) fun _ _ => trivial
  refine wp_lockedDangerousGoodsScope h (fun i scope db hs hk hrev hsound => ?_) fun _ => trivial
  have hrevision : ({ s with publications := db } : State).revision = s.revision :=
    (revision_of_find hsound.inv hs hk).trans hrev
  intro hbaseline
  rw [hrev] at hbaseline
  have hcurrent := hsound.current
  rw [hrevision] at hcurrent
  simp only [hrev, hcurrent, hsha, Option.some.injEq, wp_ite, wp_bind, wp_modify, wp_publicationCall]
  refine ⟨fun hunchanged => ?_, fun hne => ?_⟩
  · obtain ⟨c, hc, hsame⟩ := hunchanged
    refine ⟨⟨fun _ => hsound.of_batches _, List.prefix_refl _, fun hb => ?_⟩, payload, batch, hstaged, hbatch, hbaseline,
      fun _ _ _ => rfl, fun hall => absurd hsame (hall c hc)⟩
    refine batches_modify ?_ hb
    exact fun _ => rfl
  · simp only [createRevision, wp_bind, wp_get, wp_ensure, wp_modify]
    refine ⟨fun _ => wp_of_forall (fun j db' hrun => ?_) fun _ _ _ => trivial, fun _ => trivial⟩
    obtain ⟨hinstalled, hadvanced⟩ := hsound.install hs hk (by rw [hrevision]) rfl hrun
    refine ⟨⟨fun _ => hinstalled.of_batches _, List.prefix_append _ _, fun hb => ?_⟩, payload, batch, hstaged, hbatch,
      hbaseline, fun c hc hsame => absurd ⟨c, hc, hsame⟩ hne, fun _ => ⟨_, rfl, rfl, rfl, hadvanced⟩⟩
    refine batches_modify ?_ hb
    exact fun _ => rfl

/-! ### The other calls -/

theorem batches_insert {row : ImportBatch} {k : ℕ} {b : ImportBatch} (hb : s.batches.find k = some b) :
    ∃ b', (s.batches.insert row).find k = some b' ∧ b'.baseline = b.baseline := by
  have hlt := Table.lt_nextId_of_find hb
  rw [Table.find_insert, if_neg (by omega)]
  exact ⟨b, hb, rfl⟩

theorem Sound.extends_insert (h : Sound cfg { s with publications := db }) (row : ImportBatch) :
    Extends cfg s { s with publications := db, batches := s.batches.insert row } :=
  ⟨fun _ => h.of_batches _, List.prefix_refl _, batches_insert⟩

/-- A ready preview records the revision it was taken against. -/
theorem wp_createDangerousGoodsPreview (h : Sound cfg s) {filename : String} {payload : List UInt8}
    {stored : Except Error Unit} : wp (createDangerousGoodsPreview cfg env actor filename payload stored)
      (fun id t => Extends cfg s t ∧ ∃ b, t.batches.find id = some b ∧
        (b.status = .previewReady → b.baseline = some s.revision)) (fun _ t => t = s) s := by
  have hinserted : ∀ row : ImportBatch, (s.batches.insert row).find s.batches.nextId = some row := by
    intro row
    rw [Table.find_insert, if_pos rfl]
  simp only [createDangerousGoodsPreview, requireSystemAdmin, wp_bind, wp_ensure, wp_get]
  refine ⟨fun _ => ?_, fun _ => trivial⟩
  split
  · simp only [wp_bind, wp_modify, wp_pure]
    exact ⟨h.extends_insert _, _, hinserted _, fun hready => by cases hready⟩
  · trivial
  · split
    · simp only [wp_bind, wp_modify, wp_pure]
      exact ⟨h.extends_insert _, _, hinserted _, fun hready => by cases hready⟩
    · simp only [wp_atomic, wp_bind, wp_ensure]
      refine wp_lockedDangerousGoodsScope h (fun i scope db hs hk hrev hsound => ?_) fun _ => trivial
      refine ⟨fun _ => ?_, fun _ => trivial⟩
      cases stored with
      | error e => trivial
      | ok _ =>
        simp only [wp_ok, wp_modify, wp_pure]
        exact ⟨hsound.extends_insert _, _, hinserted _, fun _ => congrArg some hrev⟩

theorem wp_cancelPreview (h : Sound cfg s) {id : ℕ} :
    wp (cancelPreview env actor id) (fun _ t => Extends cfg s t) (fun _ t => t = s) s := by
  simp only [cancelPreview, wp_atomic, wp_bind, wp_get, wp_require, wp_ensure, wp_modify, implies_true, and_true]
  intro batch hbatch _ _
  refine ⟨fun _ => h.of_batches _, List.prefix_refl _, fun hb => ?_⟩
  refine batches_modify ?_ hb
  exact fun _ => rfl

/-- A publication service leaves the revisions alone, and the system scope unless it marks it. -/
theorem extends_publication (h : Sound cfg s) {call : Publications.Call} (hallowed : ¬call.marks systemKey) :
    Extends cfg s (exec (publicationCall env fun e => call.run cfg.publications e) s) := by
  have hsteps : Publications.Steps cfg.publications (call.licence (env.at s) s.publications) s.publications.core _ :=
    call.steps h.inv
  have hinv := hsteps.inv h.inv
  have hwrites : Writes cfg.publications (env.at s) call.marks s.publications _ := call.writes h.inv
  have hkept := kept_of_writes h.frozen (fun _ => h.aligned) rfl hwrites
  have hexec : exec (publicationCall env fun e => call.run cfg.publications e) s =
      { s with publications := exec (call.run cfg.publications (env.at s)) s.publications } := by
    unfold exec publicationCall
    dsimp only
    cases call.run cfg.publications (env.at s) s.publications with
    | mk r db => cases r <;> rfl
  rw [hexec]
  exact ⟨fun _ => ⟨hinv, h.numbers, h.digests, hkept.2 hallowed, hkept.1⟩, List.prefix_refl _, fun hb => ⟨_, hb, rfl⟩⟩

theorem Call.extends {call : Call} (hallowed : call.Allowed) (h : Sound cfg s) :
    Extends cfg s (exec (call.run cfg env) s) := by
  have hraise : ∀ (_ : Error) (t : State), t = s → Extends cfg s t := by
    rintro - t rfl
    exact .refl _
  cases call with
  | createDangerousGoodsPreview actor filename payload stored =>
    exact exec_of_wp (wp_bind.mpr (wp_mono (wp_createDangerousGoodsPreview h) (fun _ _ hq => hq.1) hraise))
  | applyDangerousGoodsPreview actor id staged =>
    exact exec_of_wp (wp_mono (wp_applyDangerousGoodsPreview h) (fun _ _ hq => hq.1) hraise)
  | cancelPreview actor id => exact exec_of_wp (wp_mono (wp_cancelPreview h) (fun _ _ hq => hq) hraise)
  | publication call => exact extends_publication h hallowed

end

/-! ### Runs -/

section

variable {cfg : Config} {s t : State} {payload : List UInt8}

theorem Initial.sound (h : Initial cfg s) : Sound cfg s where
  inv := h.migrated.inv
  numbers := by simp [h.revisions]
  digests := by simp [h.revisions]
  aligned r hr := by
    rw [h.revisions] at hr
    cases hr
  frozen id p hp hk := absurd hk (h.unbuilt id p hp)

theorem sound_of_reachable (h : (system cfg).Reachable s) : Sound cfg s := by
  refine h.invariant (I := Sound cfg) (fun _ hinit => Initial.sound hinit) ?_
  rintro s ⟨env, call⟩ _ hs ⟨hallowed, rfl⟩
  exact (Call.extends hallowed hs).sound hs

theorem Later.extends (h : Later cfg s t) (hs : Sound cfg s) : Extends cfg s t := by
  induction h with
  | refl => exact .refl s
  | tail _ hstep ih =>
    obtain ⟨⟨env, call⟩, hallowed, rfl⟩ := hstep
    exact ih.trans (Call.extends hallowed (ih.sound hs))

/-- A file that returns from its application is the latest source afterwards: a new one if its
bytes are new. -/
structure Applied (cfg : Config) (s : State) (payload : List UInt8) (t : State) : Prop where
  identical : ∀ c, latestRevision s.revisions = some c → c.plaintext = payload → t.revisions = s.revisions
  different : (∀ c, latestRevision s.revisions = some c → c.plaintext ≠ payload) →
    (∀ c, latestRevision s.revisions = some c → cfg.sha256 c.plaintext = cfg.sha256 payload → c.plaintext = payload) →
    ∃ r, t.revisions = s.revisions ++ [r] ∧ r.plaintext = payload ∧ r.sourceRevision = s.revision + 1 ∧
      t.revision = r.sourceRevision

theorem Installed.applied (h : Installed cfg s payload t) (hs : Sound cfg s) : Applied cfg s payload t where
  identical c hc hsame := h.same c hc (by rw [hs.digests c (latestRevision_mem hc).1, hsame])
  different hne hinj := by
    refine h.new fun c hc hsame => hne c hc (hinj c hc ?_)
    rw [← hs.digests c (latestRevision_mem hc).1, hsame]

/-- Of a held attempt, the builders of its artifact and of its summary find one and the same source. -/
def Resolves (cfg : Config) (p : Publication) (t : State) (r : DatasetSourceRevision) : Prop :=
  ∃ snapshot, p.sourceSnapshot = some snapshot ∧ ∀ env : Env,
    Publications.artifactBuilder cfg.publications (env.at t) .dangerousGoods systemTarget p.sourceRevision snapshot =
        .ok r.plaintext ∧
      Publications.summaryBuilder (env.at t) .dangerousGoods systemTarget p.sourceRevision =
        .ok [(.goodsCount, Publications.countValue r.goodsCount), (.eriCardCount, Publications.countValue r.eriCardCount),
          (.sourceRevision, Publications.countValue r.sourceRevision)]

theorem Later.resolves (h : Later cfg s t) (hs : Sound cfg s) {p : Publication} {r : DatasetSourceRevision}
    (hr : r ∈ s.revisions) (hrev : p.sourceRevision = r.sourceRevision)
    (hsnapshot : p.sourceSnapshot = some (.exactSource r.sha256)) : Resolves cfg p t r := by
  have hext := h.extends hs
  have hmem : r ∈ t.revisions := hext.revisions.subset hr
  have hn := (hext.sound hs).numbers
  refine ⟨_, hsnapshot, fun env => ⟨?_, ?_⟩⟩
  · have hfind : (t.revisions.find? fun r' => r'.sourceRevision = r.sourceRevision ∧
        Publications.Snapshot.exactSource r.sha256 = .exactSource r'.sha256) = some r := find_revision hn hmem rfl
    simp only [Publications.artifactBuilder, systemTarget, Env.at, hrev, hfind, Option.isSome_none, Bool.false_eq_true,
      or_self, if_false]
  · have hfind : (t.revisions.find? fun r' => r'.sourceRevision = r.sourceRevision ∧ True) = some r :=
      find_revision hn hmem trivial
    simp only [and_true] at hfind
    simp only [Publications.summaryBuilder, Publications.buildDangerousGoods, systemTarget, Env.at, hrev, hfind,
      Option.isSome_none, Bool.false_eq_true, or_self, if_false]
    rfl

/-- Over every run the highest revision is the one the system scope records, an application
installs new bytes once, a preview of an older revision is refused, and the source a claimed
attempt was frozen on is found by both builders whatever is applied in the meantime. -/
theorem revisions_stay_aligned (h : (system cfg).Reachable s) :
    Aligned s.revisions s.publications ∧
      (∀ env actor id staged,
        (∀ t, applyDangerousGoodsPreview cfg env actor id staged s = (.ok (), t) →
          ∃ payload, staged = some payload ∧ Applied cfg s payload t) ∧
        ∀ e t, applyDangerousGoodsPreview cfg env actor id staged s = (.error e, t) → t = s) ∧
      (∀ env actor filename payload stored id t b u,
        createDangerousGoodsPreview cfg env actor filename payload stored s = (.ok id, t) →
        t.batches.find id = some b → b.status = .previewReady → Later cfg t u → u.revision ≠ s.revision →
        ∀ env' actor' staged, ∃ e, applyDangerousGoodsPreview cfg env' actor' id staged u = (.error e, u)) ∧
      ∀ id p, s.publications.publications.find id = some p → p.key = systemKey → p.status = .building →
        ∃ r ∈ s.revisions, ∀ t, Later cfg s t → Resolves cfg p t r := by
  have hs := sound_of_reachable h
  refine ⟨hs.aligned, fun env actor id staged => ⟨fun t hrun => ?_, fun e t hrun => ?_⟩, ?_, ?_⟩
  · obtain ⟨-, payload, batch, hstaged, -, -, hinstalled⟩ := (wp_applyDangerousGoodsPreview hs).of_ok hrun
    exact ⟨payload, hstaged, hinstalled.applied hs⟩
  · exact (wp_applyDangerousGoodsPreview hs).of_error hrun
  · intro env actor filename payload stored id t b u hrun hb hready hlater hne env' actor' staged
    obtain ⟨hext, b', hb', hbaseline⟩ := (wp_createDangerousGoodsPreview hs).of_ok hrun
    rw [hb] at hb'
    cases hb'
    have hu := hlater.extends (hext.sound hs)
    obtain ⟨b', hb', hsame⟩ := hu.batches hb
    have hwp : wp (applyDangerousGoodsPreview cfg env' actor' id staged) _ _ u :=
      wp_applyDangerousGoodsPreview (hu.sound (hext.sound hs))
    cases happly : applyDangerousGoodsPreview cfg env' actor' id staged u with
    | mk outcome v =>
      cases outcome with
      | ok _ =>
        obtain ⟨-, payload', batch, -, hbatch, hrevision, -⟩ := hwp.of_ok happly
        rw [hb'] at hbatch
        cases hbatch
        rw [hsame, hbaseline hready] at hrevision
        exact absurd (Option.some.inj hrevision).symm hne
      | error e =>
        rw [hwp.of_error happly]
        exact ⟨e, rfl⟩
  · intro id p hp hk hstatus
    have hheld : p.status.isHeld = true := by rw [hstatus]; rfl
    obtain ⟨r, hr, hrev, hsnapshot⟩ := hs.frozen id p hp hk hheld
    exact ⟨r, hr, fun t hlater => hlater.resolves hs hr hrev hsnapshot⟩

end

/-! ### One file imported and claimed -/

def sampleConfig : Config where
  publications := Publications.sampleConfig
  limits := ⟨50, 4300⟩
  sha256 payload := .ofNat 256 (payload.foldl (fun n b => 257 * n + b.toNat + 1) 0)
  maxStructuredImportBytes := 65536
  maxIngestUploadBytes := 65536

def sampleEnv (now : Publications.Time) : Env where
  publications := { now := now }
  isSystemAdmin _ := true
  isDepartmentAdmin _ _ := true

def runCalls (s : State) : List (Env × Call) → State
  | [] => s
  | a :: rest => runCalls (exec (a.2.run sampleConfig a.1) s) rest

theorem reachable_runCalls {s : State} (h : (system sampleConfig).Reachable s) {calls : List (Env × Call)}
    (hallowed : ∀ a ∈ calls, a.2.Allowed) : (system sampleConfig).Reachable (runCalls s calls) := by
  induction calls generalizing s with
  | nil => exact h
  | cons a rest ih =>
    have hnext : (system sampleConfig).Reachable (exec (a.2.run sampleConfig a.1) s) :=
      h.next (a := a) ⟨hallowed a List.mem_cons_self, rfl⟩
    exact ih hnext fun b hb => hallowed b (List.mem_cons_of_mem _ hb)

/-- A file is previewed, applied and claimed by a worker. -/
def imported : List (Env × Call) :=
  [(sampleEnv 0, .createDangerousGoodsPreview 1 "goods.json" (sampleFile "1") (.ok ())),
    (sampleEnv 1, .applyDangerousGoodsPreview 1 0 (some (sampleFile "1"))),
    (sampleEnv 2000, .publication (.claimJob 0))]

/-- The claimed attempt of the imported file stays on its revision. -/
theorem imported_stays_aligned : (runCalls {} imported).revisions.length = 1 ∧
    Aligned (runCalls {} imported).revisions (runCalls {} imported).publications ∧
    ∃ p, (runCalls {} imported).publications.publications.find 0 = some p ∧ p.key = systemKey ∧ p.status = .building ∧
      ∃ r ∈ (runCalls {} imported).revisions, ∀ t, Later sampleConfig (runCalls {} imported) t →
        Resolves sampleConfig p t r := by
  have hinit : Initial sampleConfig {} := ⟨Publications.Migrated.empty, fun id p hp => by simp [Table.find] at hp, rfl⟩
  have hallowed : ∀ a ∈ imported, a.2.Allowed := by
    intro a ha
    simp only [imported, List.mem_cons, List.not_mem_nil, or_false] at ha
    rcases ha with rfl | rfl | rfl
    · trivial
    · trivial
    · exact not_false
  have haligned := revisions_stay_aligned (reachable_runCalls (.init hinit) hallowed)
  have hclaimed : (((runCalls {} imported).publications.publications.find 0).map fun p => (p.key, p.status)) =
      some (systemKey, .building) := by decide +kernel
  obtain ⟨p, hp, hsame⟩ := Option.map_eq_some_iff.mp hclaimed
  obtain ⟨hk, hstatus⟩ := Prod.mk.inj hsame
  exact ⟨by decide +kernel, haligned.1, p, hp, hk, hstatus, haligned.2.2.2 0 p hp hk hstatus⟩

end FireDash.DangerousGoods
