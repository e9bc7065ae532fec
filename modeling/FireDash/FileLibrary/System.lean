import FireDash.FileLibrary.Mutations
import FireDash.Publications.System

/-! The file libraries and their publications as one machine, and the forest every
reachable state holds. -/
namespace FireDash.FileLibrary

open Publications (Actor Content DepartmentId LibraryOwner)

inductive Call where
  | renameLibrary (actor : Actor) (library : ℕ) (name : String)
  | createFolder (actor : Actor) (library : ℕ) (name : String) (parent : Option ℕ) (id : ℕ)
  | editEntry (actor : Actor) (library entry : ℕ) (name : Option String) (parent : Option ℕ) (move : Bool)
  | deleteEntry (actor : Actor) (library entry : ℕ)
  | uploadPdf (actor : Actor) (library : ℕ) (upload : Upload)
  | collectContent (content : ℕ)
  | openLibrary (actor : Actor) (owner : LibraryOwner) (id : ℕ)
  | activateTemporaryAccess (actor : Actor) (station library : ℕ)
  | revokeTemporaryAccess (actor : Actor) (reason : String)
  | setDepartmentQuotas (actor : Actor) (department : DepartmentId) (departmentFiles stationFiles : Option ℕ)
  | publication (call : Publications.Call)

/-- The transaction of a call, its result dropped. -/
def Call.run (cfg : Config) (env : Env) : Call → Service Unit
  | .renameLibrary actor library name => FileLibrary.renameLibrary cfg env actor library name
  | .createFolder actor library name parent id => do
    let _ ← FileLibrary.createFolder cfg env actor library name parent id
  | .editEntry actor library entry name parent move => do
    let _ ← FileLibrary.editEntry cfg env actor library entry name parent move
  | .deleteEntry actor library entry => do let _ ← FileLibrary.deleteEntry cfg env actor library entry
  | .uploadPdf actor library upload => do let _ ← FileLibrary.uploadPdf cfg env actor library upload
  | .collectContent content => do let _ ← FileLibrary.collectContent content
  | .openLibrary actor owner id => do let _ ← FileLibrary.openLibrary cfg env actor owner id
  | .activateTemporaryAccess actor station library => do
    let _ ← FileLibrary.activateTemporaryAccess cfg env actor station library
  | .revokeTemporaryAccess actor reason => do let _ ← FileLibrary.revokeTemporaryAccess env actor reason
  | .setDepartmentQuotas actor department departmentFiles stationFiles =>
    FileLibrary.setDepartmentQuotas cfg env actor department departmentFiles stationFiles
  | .publication call => publicationCall env fun e => call.run cfg.publications e

/-- Every call of every service, in any order, each with its own observations. -/
def machine (cfg : Config) : Machine State (Env × Call) where
  init s := s = .empty
  step s a t := t = Tx.exec (a.2.run cfg a.1) s

variable {cfg : Config} {env : Env} {actor : Actor} {s t : State} {α : Type}

theorem Consistent.initial : Consistent cfg {} where
  tree := .empty rfl
  owned := by simp
  content_row := by simp
  usage := by simp

/-- A new library has no entries, so nothing is charged to it. -/
theorem Consistent.libraryFor {owner : LibraryOwner} {id : ℕ} (h : Consistent cfg s) :
    Tx.wp (FileLibrary.libraryFor owner id) (fun _ t => Consistent cfg t) (fun _ t => Consistent cfg t) s := by
  unfold FileLibrary.libraryFor
  simp only [Tx.wp_bind, Tx.wp_get]
  split
  · exact h
  · simp only [Tx.wp_bind, Tx.wp_require, Tx.wp_modify, Tx.wp_pure]
    refine ⟨fun libraries hlibraries => ?_, fun _ => h⟩
    obtain ⟨hn, rfl⟩ := Rows.insert?_eq_some hlibraries
    have hzero : s.referencedBytes id = 0 := by
      have hnone : ∀ e ∈ s.entries.list, (if e.library = id then s.sizeBytes e else 0) = 0 := by
        intro e he
        apply if_neg
        rintro rfl
        obtain ⟨l, hl⟩ := h.owned e he
        rw [hn] at hl
        cases hl
      rw [State.referencedBytes, Rows.sum_congr hnone]
      simp [Rows.sum]
    refine ⟨h.tree, fun e he => ?_, h.content_row, fun l hl => ?_⟩
    · obtain ⟨l, hl⟩ := h.owned e he
      refine ⟨l, ?_⟩
      rw [Rows.find_insert, if_neg, hl]
      rintro rfl
      rw [hn] at hl
      cases hl
    · rcases (Rows.mem_insert hn).mp hl with hl | rfl
      · exact h.usage l hl
      · exact hzero.symm

theorem frames_initializeLibrary {library : Library} : Tx.Frames SameRows (initializeLibrary cfg env library) s := by
  unfold initializeLibrary
  apply Tx.Frames.toAtomic
  refine frames_lockScope.bind fun _ t _ => ?_
  rw [Tx.frames_get_bind]
  refine (Tx.frames_require _ _).bind fun found u _ => ?_
  obtain ⟨id, scope⟩ := found
  refine Tx.Frames.whenever _ fun _ => ?_
  exact (frames_publicationCall _).bind fun _ _ _ => Tx.frames_pure _

theorem Consistent.openLibrary {owner : LibraryOwner} {id : ℕ} (h : Consistent cfg s) :
    Tx.wp (FileLibrary.openLibrary cfg env actor owner id)
      (fun _ t => Consistent cfg t) (fun _ t => Consistent cfg t) s := by
  unfold FileLibrary.openLibrary
  simp only [Tx.wp_atomic, Tx.wp_bind, Tx.wp_ofExcept, Tx.wp_pure]
  refine ⟨fun _ _ => ?_, fun _ _ => h⟩
  refine Tx.wp_mono h.libraryFor (fun library t ht => ?_) (fun _ _ _ => h)
  exact Tx.wp_mono frames_initializeLibrary (fun _ _ hu => ht.of_same hu) (fun _ _ _ => h)

theorem Consistent.activateTemporaryAccess {station library : ℕ} (h : Consistent cfg s) :
    Tx.wp (FileLibrary.activateTemporaryAccess cfg env actor station library)
      (fun _ t => Consistent cfg t) (fun _ t => Consistent cfg t) s := by
  unfold FileLibrary.activateTemporaryAccess
  simp only [Tx.wp_atomic, Tx.wp_bind, Tx.wp_require, Tx.wp_ensure]
  refine ⟨fun department _ => ⟨fun _ => ?_, fun _ => h⟩, fun _ => h⟩
  refine Tx.wp_mono (frames_activeTemporaryAccess (F := SameRows)) (fun previous s₁ h₁ => ?_) (fun _ _ _ => h)
  have hs₁ := h.of_same h₁
  have hactivate : ∀ s₂, Consistent cfg s₂ → Tx.wp (do
      let s ← Tx.get
      Tx.ensure (s.openAccess actor = none) (.integrityError "one_active_temporary_station_access")
      let now := env.publications.now
      let access : TemporaryStationAccess :=
        { user := actor, department := department, station := station, activatedAt := now
          expiresAt := now + temporaryAccessDuration }
      Tx.modify fun t => { t with accesses := t.accesses.insert access }
      let library ← FileLibrary.libraryFor (.station ⟨station, department⟩) library
      initializeLibrary cfg env library
      return s.accesses.nextId : Service ℕ) (fun _ t => Consistent cfg t) (fun _ _ => Consistent cfg s) s₂ := by
    intro s₂ hs₂
    simp only [Tx.wp_bind, Tx.wp_get, Tx.wp_ensure, Tx.wp_modify, Tx.wp_pure]
    refine ⟨fun _ => ?_, fun _ => h⟩
    refine Tx.wp_mono (Consistent.libraryFor (hs₂.of_same ⟨rfl, rfl, rfl⟩)) (fun row s₃ hs₃ => ?_) (fun _ _ _ => h)
    exact Tx.wp_mono frames_initializeLibrary (fun _ _ hu => hs₃.of_same hu) (fun _ _ _ => h)
  cases previous with
  | none => exact hactivate s₁ hs₁
  | some found =>
    obtain ⟨id, access⟩ := found
    simp only [Tx.wp_ite, Tx.wp_pure]
    refine ⟨fun _ => hs₁, fun _ => ?_⟩
    rw [Tx.wp_bind]
    refine Tx.wp_mono (frames_revokeAccess (F := SameRows) id _) (fun _ s₂ h₂ => ?_) (fun _ _ _ => h)
    exact hactivate s₂ (hs₁.of_same h₂)

theorem frames_setDepartmentQuotas {department : DepartmentId} {departmentFiles stationFiles : Option ℕ} :
    Tx.Frames SameRows (setDepartmentQuotas cfg env actor department departmentFiles stationFiles) s := by
  unfold setDepartmentQuotas
  apply Tx.Frames.toAtomic
  refine (Tx.frames_ensure _ _).bind fun _ _ _ => (Tx.frames_ofExcept _).bind fun _ _ _ => ?_
  refine (frames_quotaPolicy department).bind fun policy t _ => ?_
  refine Tx.Frames.whenever _ fun _ => ?_
  refine Tx.Frames.bind ⟨rfl, rfl, rfl⟩ fun _ _ _ => ?_
  exact (frames_revokeTemporaryAccess _).bind fun _ _ _ => Tx.frames_pure _

/-- Only contents that no entry references are collected. -/
theorem Consistent.collectContent {id : ℕ} (h : Consistent cfg s) :
    Tx.wp (FileLibrary.collectContent id) (fun _ t => Consistent cfg t) (fun _ t => Consistent cfg t) s := by
  unfold FileLibrary.collectContent
  simp only [Tx.wp_atomic, Tx.wp_bind, Tx.wp_get, Tx.wp_require, Tx.wp_ite, Tx.wp_pure, Tx.wp_modify]
  refine ⟨fun content hcontent => ⟨fun _ => h, fun hfree => ?_⟩, fun _ => h⟩
  have hkeep : ∀ e ∈ s.entries.list, ∀ c k, e.content = some c → s.contents.find c = some k →
      (s.contents.delete fun c => decide (c.id = content.id)).find c = some k := by
    intro e he c k hec hk
    have hid : k.id = c := Rows.key_of_find hk
    rw [Rows.find_delete, hk, Option.filter_some, if_pos]
    simp only [Bool.not_eq_true', decide_eq_false_iff_not, hid]
    rintro rfl
    exact hfree (.inl ⟨e, he, hec⟩)
  refine ⟨h.tree, h.owned, fun e he c hec => ?_, fun l hl => ?_⟩
  · obtain ⟨k, hk, hkl⟩ := h.content_row e he c hec
    exact ⟨k, hkeep e he c k hec hk, hkl⟩
  · rw [h.usage l hl]
    refine Rows.sum_congr fun e he => ?_
    unfold State.sizeBytes State.contentOf
    cases hec : e.content with
    | none => rfl
    | some c =>
      obtain ⟨k, hk, -⟩ := h.content_row e he c hec
      simp only [Option.bind_some, hkeep e he c k hec hk, hk]

theorem Consistent.call (h : Consistent cfg s) (env : Env) (call : Call) :
    Consistent cfg (Tx.exec (call.run cfg env) s) := by
  apply Tx.exec_of_wp (P := fun t => Consistent cfg t)
  have hdrop : ∀ {β : Type} {x : Service β}, Tx.wp x (fun _ t => Consistent cfg t) (fun _ t => Consistent cfg t) s →
      Tx.wp (do let _ ← x : Service Unit) (fun _ t => Consistent cfg t) (fun _ t => Consistent cfg t) s := by
    intro β x hx
    rw [Tx.wp_bind]
    exact Tx.wp_mono hx (fun _ _ ht => ht) (fun _ _ ht => ht)
  have hframes : ∀ {β : Type} {x : Service β}, Tx.Frames SameRows x s →
      Tx.wp x (fun _ t => Consistent cfg t) (fun _ t => Consistent cfg t) s := by
    intro β x hx
    exact Tx.wp_mono hx (fun _ _ ht => h.of_same ht) (fun _ _ ht => h.of_same ht)
  cases call with
  | renameLibrary actor library name => exact h.renameLibrary
  | createFolder actor library name parent id => exact hdrop h.createFolder
  | editEntry actor library entry name parent move => exact hdrop h.editEntry
  | deleteEntry actor library entry => exact hdrop h.deleteEntry
  | uploadPdf actor library upload => exact hdrop h.uploadPdf
  | collectContent content => exact hdrop h.collectContent
  | openLibrary actor owner id => exact hdrop h.openLibrary
  | activateTemporaryAccess actor station library => exact hdrop h.activateTemporaryAccess
  | revokeTemporaryAccess actor reason => exact hdrop (hframes (frames_revokeTemporaryAccess _))
  | setDepartmentQuotas actor department departmentFiles stationFiles => exact hframes frames_setDepartmentQuotas
  | publication call =>
    have hcall : Tx.Frames SameRows (publicationCall env fun e => call.run cfg.publications e) s :=
      frames_publicationCall _
    exact hframes hcall

theorem consistent_of_reachable (h : (machine cfg).Reachable s) : Consistent cfg s := by
  refine h.invariant (I := fun s => Consistent cfg s) ?_ ?_
  · rintro s rfl
    exact .initial
  · rintro s ⟨env, call⟩ t hs rfl
    exact hs.call env call

/-- What holds of the entries of all libraries. -/
structure Forest (cfg : Config) (s : State) : Prop where
  parent_folder : ∀ e ∈ s.entries.list, ∀ p, e.parent = some p →
    ∃ f ∈ s.entries.list, f.id = p ∧ f.library = e.library ∧ f.isFolder = true
  acyclic : ∀ i d, (entryLinks s.entries).Below i i d → d = 0
  depth : ∀ e ∈ s.entries.list, e.isFolder = true →
    ∃ n ≤ maxFolderDepth, (entryLinks s.entries).Depth e.id n
  siblings : ∀ e ∈ s.entries.list, ∀ f ∈ s.entries.list, e ≠ f → e.library = f.library → e.parent = f.parent →
    cfg.upper e.name ≠ cfg.upper f.name ∧ cfg.lower e.name ≠ cfg.lower f.name
  usage : ∀ l ∈ s.libraries.list, l.usageBytes = s.referencedBytes l.id ∧ 0 ≤ l.usageBytes
  ancestry : ∀ e ∈ s.entries.list, e.isFolder = true → ∃ path, s.folderAncestry e.library (some e) = .ok path
  searches : ∀ e ∈ s.entries.list, ∀ foldersOnly, ∃ levels, s.subtreeLevels foldersOnly e.id = .ok levels

theorem Consistent.forest (h : Consistent cfg s) : Forest cfg s where
  parent_folder e he p hp := by
    obtain ⟨f, hf, hl, hk⟩ := h.tree.parent_folder e he p hp
    exact ⟨f, Rows.mem_of_find hf, Rows.key_of_find hf, hl, hk⟩
  acyclic i d hb := by
    cases d with
    | zero => rfl
    | succ d =>
      have hnode : ∃ e, s.entries.find i = some e := by
        cases hb with
        | step hp _ =>
          obtain ⟨e, he, -⟩ := entryLinks_eq_some hp
          exact ⟨e, he⟩
      obtain ⟨e, he⟩ := hnode
      obtain rfl : e.id = i := Rows.key_of_find he
      obtain ⟨n, hn, -⟩ := h.tree.depth e (Rows.mem_of_find he)
      exact hn.acyclic hb
  depth e he hk := by
    obtain ⟨n, hn, hle⟩ := h.tree.depth e he
    exact ⟨n, hle hk, hn⟩
  siblings e he f hf hne hl hp := by
    constructor
    · intro hm
      exact hne (h.tree.upper e he f hf hl hp hm)
    · intro hm
      exact hne (h.tree.lower e he f hf hl hp hm)
  usage l hl := by
    have hu := h.usage l hl
    refine ⟨hu, ?_⟩
    rw [hu]
    exact s.referencedBytes_nonneg l.id
  ancestry e he hk := h.tree.folderAncestry_exists he hk
  searches e he foldersOnly := h.tree.subtreeLevels_exists he foldersOnly

/-- After any sequence of calls, successful or not, the entries form forests of bounded depth
inside their libraries, siblings differ in their names, and the counters are exact. -/
theorem forest_of_reachable (h : (machine cfg).Reachable s) : Forest cfg s :=
  (consistent_of_reachable h).forest

/-! ### A small library -/

def runCalls (cfg : Config) : State → List (Env × Call) → State
  | s, [] => s
  | s, (env, call) :: calls => runCalls cfg (Tx.exec (call.run cfg env) s) calls

theorem reachable_runCalls (h : (machine cfg).Reachable s) (calls : List (Env × Call)) :
    (machine cfg).Reachable (runCalls cfg s calls) := by
  induction calls generalizing s with
  | nil => exact h
  | cons a calls ih => exact ih (h.next rfl)

def sampleConfig : Config where
  upper := String.map Char.toUpper
  lower := String.map Char.toLower
  publications := Publications.sampleConfig
  departmentQuotaBytes := 1000
  stationQuotaBytes := 1000
  maxQuotaBytes := 10000
  maxFileBytes := 500

/-- An administrator of the only department. -/
def sampleEnv : Env where
  publications := { now := 0 }
  activeDepartmentIds := fun _ => [1]

/-- A folder holding a document, and a second folder that may not take the name of the first. -/
def sampleCalls : List (Env × Call) :=
  [ (sampleEnv, .openLibrary 7 (.department 1) 1),
    (sampleEnv, .createFolder 7 1 "Plans" none 10),
    (sampleEnv, .createFolder 7 1 "plans" none 11),
    (sampleEnv, .uploadPdf 7 1 { name := "a.pdf", size := 5, parentId := some 10, contentId := 20, documentId := 21
                                 prepared := .ok (5, 0) }) ]

theorem sampleLibrary_forest :
    (runCalls sampleConfig {} sampleCalls).entries.list.map (fun e => (e.name, e.parent)) =
      [("Plans", none), ("a.pdf", some 10)] ∧
    (runCalls sampleConfig {} sampleCalls).libraries.list.map (·.usageBytes) = [5] ∧
    Forest sampleConfig (runCalls sampleConfig {} sampleCalls) :=
  ⟨by decide +kernel, by decide +kernel, forest_of_reachable (reachable_runCalls (.init rfl) sampleCalls)⟩

end FireDash.FileLibrary
