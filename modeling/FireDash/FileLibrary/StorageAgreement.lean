import FireDash.FileLibrary.Storage

/-! Rows and accepted files agree over every interleaving of uploads, collections and
reconciliations. -/
namespace FireDash.FileLibrary

open Publications (Actor Content Digest Time)

/-- The upload is over, and its content row may be committed. -/
def UploadPhase.isSettled : UploadPhase → Bool
  | .committed | .ended => true
  | _ => false

/-- The files a reconciliation still has before it in its directory. -/
def PassPhase.keys : PassPhase → List String
  | .inside _ pending => pending
  | .unlinking _ pending key => key :: pending
  | _ => []

/-- A pass may not wait for files outside the directory it holds. -/
theorem PassPhase.keys_of_directory {phase : PassPhase} (h : phase.directory = none) : phase.keys = [] := by
  cases phase <;> simp_all [directory, keys]

namespace Storage

/-- No content row names the path. -/
def Unnamed (s : Storage) (key : String) : Prop := ∀ c ∈ s.rows.contents.list, c.storageKey ≠ key

/-- The path was drawn by an upload that satisfies `P`. -/
def UploadedBy (s : Storage) (key : String) (P : UploadRun → Prop) : Prop :=
  ∃ i run, s.uploads.find i = some run ∧ run.key = key ∧ P run

/-- The accepted file of a content row, with the recorded size and digest. -/
def Holds (sha256 : List UInt8 → Digest) (s : Storage) (c : Content) : Prop :=
  ∃ f, s.files.find c.storageKey = some f ∧ f.bytes.length = c.sizeBytes ∧ sha256 f.bytes = c.sha256

/-- The committed rows have their files, every path belongs to one upload, and a storage lock to
one transaction. -/
structure Sound (sha256 : List UInt8 → Digest) (s : Storage) : Prop where
  rows : FileLibrary.Sound s.rows
  stored : ∀ c ∈ s.rows.contents.list, s.Holds sha256 c
  upload_key : ∀ {i j u v}, s.uploads.find i = some u → s.uploads.find j = some v → u.key = v.key → i = j
  upload_lock : ∀ {i u}, s.uploads.find i = some u → u.phase.inTransaction = true →
    s.locks u.library = some (.upload i)
  pass_lock : ∀ {i p d}, s.passes.find i = some p → p.phase.directory = some d → s.locks d = some (.pass i)
  named : ∀ c ∈ s.rows.contents.list, s.UploadedBy c.storageKey fun run => run.phase.isSettled = true
  collected : ∀ key ∈ s.rows.removals, s.Unnamed key ∧ s.UploadedBy key fun run => run.phase.isSettled = true
  placed : ∀ f ∈ s.files.list, s.UploadedBy f.key fun run => run.library = f.library ∧ run.phase ≠ .locked
  promoted : ∀ {i u}, s.uploads.find i = some u → u.phase = .promoted →
    ∃ f, s.files.find u.key = some f ∧ f.bytes = u.output
  listed : ∀ {i p}, s.passes.find i = some p → ∀ key ∈ p.phase.keys,
    s.UploadedBy key fun run => p.phase.directory = some run.library ∧ run.phase ≠ .locked
  orphaned : ∀ {i p directory pending key}, s.passes.find i = some p → p.phase = .unlinking directory pending key →
    s.Unnamed key ∧ ∀ f, s.files.find key = some f → f.modified < p.startedAt - p.grace
  started : ∀ {i p}, s.passes.find i = some p → p.startedAt ≤ s.now

/-- What a step that is taken does. -/
inductive Taken (cfg : Config) (sha256 : List UInt8 → Digest) (s : Storage) : Action → Storage → Prop
  | tick (elapsed : Time) : Taken cfg sha256 s (.tick elapsed) { s with now := s.now + elapsed }
  | call (env : Env) (call : Call) (hadds : ∀ c, ¬call.adds c) :
    Taken cfg sha256 s (.call env call) { s with rows := Tx.exec (call.run cfg env) s.rows }
  | unlinkCollected {key : String} (hk : key ∈ s.rows.removals) : Taken cfg sha256 s (.unlinkCollected key) (s.unlink key)
  | refused {env : Env} {actor : Actor} {library : ℕ} {upload : Upload} {output : List UInt8} {modified : Time} {rows : State}
    (hrows : Preserves (fun _ => False) s.rows rows) :
    Taken cfg sha256 s (.beginUpload env actor library upload output modified) { s with rows := rows }
  | begun {env : Env} {actor : Actor} {library : ℕ} {upload : Upload} {output : List UInt8} {modified : Time} {rows : State}
    {run : UploadRun} (hrows : Preserves (fun _ => False) s.rows rows) (hfree : s.locks library = none)
    (hphase : run.phase = .locked) (hfresh : ∀ {i u}, s.uploads.find i = some u → u.key ≠ run.key)
    (hlibrary : run.library = library) :
    Taken cfg sha256 s (.beginUpload env actor library upload output modified)
      (setLock { s with rows := rows, uploads := s.uploads.insert run } run.library (some (.upload s.uploads.nextId)))
  | promote {id : ℕ} {run : UploadRun} (hrun : s.uploads.find id = some run) (hphase : run.phase = .locked)
    (hfree : s.files.find run.key = none) :
    Taken cfg sha256 s (.promote id)
      (moveUpload { s with files := s.files.insert ⟨run.library, run.key, run.output, run.modified⟩ hfree } id .promoted)
  | commit {env : Env} {id : ℕ} {run : UploadRun} {rows : State} (hrun : s.uploads.find id = some run)
    (hphase : run.phase = .promoted) (hrows : Preserves
      (fun c => c = run.upload.content run.library run.output.length (sha256 run.output)) s.rows rows) :
    Taken cfg sha256 s (.commit env id) ((moveUpload { s with rows := rows } id .committed).setLock run.library none)
  | failUpload {id : ℕ} {run : UploadRun} (hrun : s.uploads.find id = some run) (hin : run.phase.inTransaction = true) :
    Taken cfg sha256 s (.failUpload id) (s.abandonUpload id run (.failed (run.phase = .promoted)))
  | failAfterCommit {id : ℕ} {run : UploadRun} (hrun : s.uploads.find id = some run) (hphase : run.phase = .committed) :
    Taken cfg sha256 s (.failAfterCommit id) (s.moveUpload id (.failed true))
  | finishUpload {id : ℕ} {run : UploadRun} (hrun : s.uploads.find id = some run) :
    Taken cfg sha256 s (.finishUpload id) (s.moveUpload id .ended)
  | cleanup {id : ℕ} {run : UploadRun} {accepted unlinked : Bool} (hrun : s.uploads.find id = some run)
    (hphase : run.phase = .failed accepted) :
    Taken cfg sha256 s (.cleanup id unlinked)
      ((if accepted ∧ unlinked then s.unlink run.key else s).moveUpload id .ended)
  | crashUpload {id : ℕ} {run : UploadRun} (hrun : s.uploads.find id = some run) :
    Taken cfg sha256 s (.crashUpload id) (s.abandonUpload id run .ended)
  | startPass {grace : Time} {dryRun : Bool} (hgrace : Publications.day ≤ grace) :
    Taken cfg sha256 s (.startPass grace dryRun) { s with passes := s.passes.insert (s.newPass grace dryRun) }
  | enterDirectory {id : ℕ} {pass : Pass} {directory : ℕ} {rest : List ℕ} (hpass : s.passes.find id = some pass)
    (hphase : pass.phase = .between) (hdirectories : pass.directories = directory :: rest)
    (hfree : s.locks directory = none) :
    Taken cfg sha256 s (.enterDirectory id) ((s.modifyPass id fun pass => { pass with
      directories := rest
      phase := .inside directory (s.glob directory) }).setLock directory (some (.pass id)))
  | checkFile {id : ℕ} {pass : Pass} {directory : ℕ} {key : String} {pending : List String}
    (hpass : s.passes.find id = some pass) (hphase : pass.phase = .inside directory (key :: pending)) :
    Taken cfg sha256 s (.checkFile id) (s.modifyPass id (Pass.move
      (if s.isOrphan pass key then .unlinking directory pending key else .inside directory pending)))
  | unlinkFile {id : ℕ} {pass : Pass} {directory : ℕ} {key : String} {pending : List String}
    (hpass : s.passes.find id = some pass) (hphase : pass.phase = .unlinking directory pending key) :
    Taken cfg sha256 s (.unlinkFile id) ((if pass.dryRun then s else s.unlink key).modifyPass id fun pass =>
      { pass with removed := pass.removed + 1, phase := .inside directory pending })
  | leaveDirectory {id : ℕ} {pass : Pass} {directory : ℕ} (hpass : s.passes.find id = some pass)
    (hphase : pass.phase = .inside directory []) :
    Taken cfg sha256 s (.leaveDirectory id) ((s.modifyPass id (Pass.move .between)).setLock directory none)
  | finishPass {id : ℕ} {pass : Pass} (hpass : s.passes.find id = some pass) (hphase : pass.phase = .between)
    (hdirectories : pass.directories = []) :
    Taken cfg sha256 s (.finishPass id) (s.modifyPass id (Pass.move .completed))
  | crashInside {id : ℕ} {pass : Pass} {directory : ℕ} (hpass : s.passes.find id = some pass)
    (hd : pass.phase.directory = some directory) :
    Taken cfg sha256 s (.crashPass id) ((s.modifyPass id (Pass.move .crashed)).setLock directory none)
  | crashBetween {id : ℕ} {pass : Pass} (hpass : s.passes.find id = some pass) (hphase : pass.phase ≠ .completed) :
    Taken cfg sha256 s (.crashPass id) (s.modifyPass id (Pass.move .crashed))

section

variable {cfg : Config} {sha256 : List UInt8 → Digest} {s t : Storage} {key : String} {P Q : UploadRun → Prop}
  {id : ℕ} {run : UploadRun} {pass : Pass}

theorem UploadedBy.mono (h : s.UploadedBy key P) (hPQ : ∀ run, P run → Q run) : s.UploadedBy key Q := by
  obtain ⟨i, run, hrun, hkey, hP⟩ := h
  exact ⟨i, run, hrun, hkey, hPQ run hP⟩

/-- The upload of a path is the only one. -/
theorem Sound.uploadedBy (h : s.Sound sha256) (hk : s.UploadedBy key P) {u : UploadRun} {i : ℕ}
    (hu : s.uploads.find i = some u) (hkey : u.key = key) : P u := by
  obtain ⟨j, v, hv, hvkey, hP⟩ := hk
  obtain rfl := h.upload_key hv hu (hvkey.trans hkey.symm)
  rw [hu] at hv
  cases hv
  exact hP

theorem unlink_find (k : String) : (s.unlink key).files.find k = if k = key then none else s.files.find k := by
  show (s.files.delete _).find k = _
  rw [Rows.find_delete]
  cases hf : s.files.find k with
  | none => simp
  | some f =>
    have hk : f.key = k := Rows.key_of_find hf
    by_cases hkey : k = key <;> simp [hk, hkey]

/-- The uploads after a move of one of them. -/
theorem moveUpload_cases {phase : UploadPhase} {j : ℕ} {u : UploadRun}
    (h : (s.moveUpload id phase).uploads.find j = some u) :
    (j ≠ id ∧ s.uploads.find j = some u) ∨ (j = id ∧ ∃ v, s.uploads.find id = some v ∧ u = v.move phase) := by
  have hfind : (s.uploads.modify id (UploadRun.move phase)).find j = some u := h
  rw [Table.find_modify] at hfind
  split at hfind
  · rename_i hj
    subst hj
    obtain ⟨v, hv, rfl⟩ := Option.map_eq_some_iff.mp hfind
    exact .inr ⟨rfl, v, hv, rfl⟩
  · rename_i hj
    exact .inl ⟨fun he => hj he.symm, hfind⟩

theorem Sound.moveUpload_key (h : s.Sound sha256) (phase : UploadPhase) {i j : ℕ} {u v : UploadRun}
    (hu : (s.moveUpload id phase).uploads.find i = some u) (hv : (s.moveUpload id phase).uploads.find j = some v)
    (hkey : u.key = v.key) : i = j := by
  have hold : ∀ {k : ℕ} {w : UploadRun}, (s.moveUpload id phase).uploads.find k = some w →
      ∃ w', s.uploads.find k = some w' ∧ w'.key = w.key := by
    intro k w hw
    rcases moveUpload_cases hw with ⟨-, hw⟩ | ⟨rfl, w', hw', rfl⟩
    · exact ⟨w, hw, rfl⟩
    · exact ⟨w', hw', rfl⟩
  obtain ⟨u', hu', hku⟩ := hold hu
  obtain ⟨v', hv', hkv⟩ := hold hv
  exact h.upload_key hu' hv' (by rw [hku, hkv, hkey])

/-- A condition on the upload of a path survives a move that keeps it. -/
theorem UploadedBy.moveUpload (h : s.UploadedBy key P) {phase : UploadPhase} (hrun : s.uploads.find id = some run)
    (hkeep : P run → P (run.move phase)) : (s.moveUpload id phase).UploadedBy key P := by
  obtain ⟨j, u, hu, hkey, hP⟩ := h
  by_cases hj : id = j
  · subst hj
    rw [hrun] at hu
    cases hu
    refine ⟨id, run.move phase, ?_, hkey, hkeep hP⟩
    show (s.uploads.modify id _).find id = _
    rw [Table.find_modify, if_pos rfl, hrun]
    rfl
  · refine ⟨j, u, ?_, hkey, hP⟩
    show (s.uploads.modify id _).find j = _
    rw [Table.find_modify, if_neg hj]
    exact hu

/-! ### What each step does -/

theorem preserves_prepareUpload {env : Env} {actor : Actor} {libraryId : ℕ} {upload : Upload} {rows : State}
    {adds : Content → Prop} : Tx.Frames (Preserves adds) (prepareUpload cfg env actor libraryId upload) rows := by
  unfold prepareUpload
  refine frames_activeTemporaryAccess.bind fun _ _ _ => (frames_getLibrary libraryId).bind fun library _ _ => ?_
  refine (Tx.frames_ofExcept _).bind fun _ _ _ => (Tx.frames_ofExcept _).bind fun name _ _ => ?_
  refine (Tx.frames_ensure _ _).bind fun _ _ _ => (Tx.frames_ensure _ _).bind fun _ _ _ => ?_
  refine (Tx.frames_ofExcept _).bind fun prepared _ _ => (Tx.frames_ensure _ _).bind fun _ _ _ => ?_
  exact Tx.frames_pure _

theorem step_taken {a : Action} (hs : s.step cfg sha256 a = some t) : Taken cfg sha256 s a t := by
  cases a with
  | tick elapsed =>
    cases hs
    exact .tick elapsed
  | call env call =>
    cases call with
    | uploadPdf => cases hs
    | _ =>
      cases hs
      exact .call env _ fun _ => not_false
  | unlinkCollected key =>
    simp only [step, Option.ite_none_right_eq_some, Option.some.injEq] at hs
    obtain ⟨hk, rfl⟩ := hs
    exact .unlinkCollected hk
  | beginUpload env actor library upload output modified =>
    have hframes : Tx.Frames (Preserves fun _ => False) (prepareUpload cfg env actor library
      { upload with prepared := .ok (output.length, sha256 output) }) s.rows := preserves_prepareUpload
    have hexec := hframes.exec
    unfold Tx.exec at hexec
    simp only [step] at hs
    split at hs
    · rename_i e rows hprepare
      rw [hprepare] at hexec
      cases hs
      exact .refused hexec
    · rename_i name size rows hprepare
      rw [hprepare] at hexec
      simp only [Option.ite_none_right_eq_some, Option.some.injEq] at hs
      obtain ⟨⟨hfree, -, hfresh⟩, rfl⟩ := hs
      have hphase : (⟨actor, library, upload, name, output, modified, .locked⟩ : UploadRun).phase = .locked := rfl
      refine .begun hexec hfree hphase ?_ rfl
      intro i u hu hkey
      have hno := Table.any_eq_false.mp hfresh i u hu
      simp only [decide_eq_false_iff_not] at hno
      exact hno hkey
  | promote id =>
    simp only [step, bind_eq_some, Option.ite_none_right_eq_some] at hs
    obtain ⟨run, hrun, hphase, files, hfiles, hs⟩ := hs
    obtain ⟨hfree, rfl⟩ := Rows.insert?_eq_some hfiles
    cases hs
    exact .promote hrun hphase hfree
  | commit env id =>
    simp only [step, bind_eq_some, Option.ite_none_right_eq_some] at hs
    obtain ⟨run, hrun, hphase, hs⟩ := hs
    have hframes : Tx.Frames (Preserves fun c => c = run.upload.content run.library run.output.length (sha256 run.output))
      (acceptUpload cfg env run.actor run.library run.name run.upload run.output.length (sha256 run.output)) s.rows :=
      preserves_acceptUpload rfl
    have hexec := hframes.exec
    unfold Tx.exec at hexec
    split at hs
    · rename_i entry rows haccept
      rw [haccept] at hexec
      cases hs
      exact .commit hrun hphase hexec
    · cases hs
  | failUpload id =>
    simp only [step, bind_eq_some, Option.ite_none_right_eq_some, Option.some.injEq] at hs
    obtain ⟨run, hrun, hin, rfl⟩ := hs
    exact .failUpload hrun hin
  | failAfterCommit id =>
    simp only [step, bind_eq_some, Option.ite_none_right_eq_some, Option.some.injEq] at hs
    obtain ⟨run, hrun, hphase, rfl⟩ := hs
    exact .failAfterCommit hrun hphase
  | finishUpload id =>
    simp only [step, bind_eq_some, Option.ite_none_right_eq_some, Option.some.injEq] at hs
    obtain ⟨run, hrun, -, rfl⟩ := hs
    exact .finishUpload hrun
  | cleanup id unlinked =>
    simp only [step, bind_eq_some] at hs
    obtain ⟨run, hrun, hs⟩ := hs
    split at hs
    · rename_i accepted hphase
      cases hs
      exact .cleanup hrun hphase
    · cases hs
  | crashUpload id =>
    simp only [step, bind_eq_some, Option.some.injEq] at hs
    obtain ⟨run, hrun, rfl⟩ := hs
    exact .crashUpload hrun
  | startPass grace dryRun =>
    simp only [step, Option.ite_none_left_eq_some, Option.some.injEq] at hs
    obtain ⟨hgrace, rfl⟩ := hs
    exact .startPass (Nat.not_lt.mp hgrace)
  | enterDirectory id =>
    simp only [step, bind_eq_some] at hs
    obtain ⟨pass, hpass, hs⟩ := hs
    split at hs
    · rename_i directory rest hphase hdirectories
      simp only [Option.ite_none_right_eq_some, Option.some.injEq] at hs
      obtain ⟨hfree, rfl⟩ := hs
      exact .enterDirectory hpass hphase hdirectories hfree
    · cases hs
  | checkFile id =>
    simp only [step, bind_eq_some] at hs
    obtain ⟨pass, hpass, hs⟩ := hs
    split at hs
    · rename_i directory key pending hphase
      cases hs
      exact .checkFile hpass hphase
    · cases hs
  | unlinkFile id =>
    simp only [step, bind_eq_some] at hs
    obtain ⟨pass, hpass, hs⟩ := hs
    split at hs
    · rename_i directory pending key hphase
      cases hs
      exact .unlinkFile hpass hphase
    · cases hs
  | leaveDirectory id =>
    simp only [step, bind_eq_some] at hs
    obtain ⟨pass, hpass, hs⟩ := hs
    split at hs
    · rename_i directory hphase
      cases hs
      exact .leaveDirectory hpass hphase
    · cases hs
  | finishPass id =>
    simp only [step, bind_eq_some] at hs
    obtain ⟨pass, hpass, hs⟩ := hs
    split at hs
    · rename_i hphase hdirectories
      cases hs
      exact .finishPass hpass hphase hdirectories
    · cases hs
  | crashPass id =>
    simp only [step, bind_eq_some] at hs
    obtain ⟨pass, hpass, hs⟩ := hs
    split at hs
    · rename_i directory hd
      cases hs
      exact .crashInside hpass hd
    · simp only [Option.ite_none_left_eq_some, Option.some.injEq] at hs
      obtain ⟨hphase, rfl⟩ := hs
      exact .crashBetween hpass hphase

theorem Sound.tick (h : s.Sound sha256) (elapsed : Time) : Sound sha256 { s with now := s.now + elapsed } :=
  { h with started := fun hp => Nat.le_trans (h.started hp) (Nat.le_add_right _ _) }

/-- Contents are only collected. -/
theorem Sound.setRows (h : s.Sound sha256) {rows : State} (hrows : FileLibrary.Sound rows)
    (hcontents : ∀ c ∈ rows.contents.list, c ∈ s.rows.contents.list)
    (hremovals : ∀ k ∈ rows.removals, k ∈ s.rows.removals ∨
      (∃ c ∈ s.rows.contents.list, c.storageKey = k) ∧ ∀ c ∈ rows.contents.list, c.storageKey ≠ k) :
    Sound sha256 { s with rows := rows } :=
  { h with
    rows := hrows
    stored := fun c hc => h.stored c (hcontents c hc)
    named := fun c hc => h.named c (hcontents c hc)
    collected := by
      intro k hk
      rcases hremovals k hk with hk | ⟨⟨c, hc, rfl⟩, hno⟩
      · obtain ⟨hunnamed, hrun⟩ := h.collected k hk
        exact ⟨fun c hc => hunnamed c (hcontents c hc), hrun⟩
      · exact ⟨hno, h.named c hc⟩
    orphaned := by
      intro i p directory pending k hp hphase
      obtain ⟨hunnamed, hold⟩ := h.orphaned hp hphase
      exact ⟨fun c hc => hunnamed c (hcontents c hc), hold⟩ }

/-- A file may go when neither a row nor an upload in its transaction owns it. -/
theorem Sound.unlink (h : s.Sound sha256) (hrow : s.Unnamed key)
    (hrun : ∀ {i u}, s.uploads.find i = some u → u.key = key → u.phase ≠ .promoted) : (s.unlink key).Sound sha256 :=
  { h with
    stored := by
      intro c hc
      obtain ⟨f, hf, hsame⟩ := h.stored c hc
      refine ⟨f, ?_, hsame⟩
      rw [unlink_find, if_neg (hrow c hc)]
      exact hf
    placed := fun f hf => h.placed f (Rows.mem_delete.mp hf).1
    promoted := by
      intro i u hu hphase
      obtain ⟨f, hf, hsame⟩ := h.promoted hu hphase
      refine ⟨f, ?_, hsame⟩
      rw [unlink_find, if_neg fun hkey => hrun hu hkey hphase]
      exact hf
    orphaned := by
      intro i p directory pending k hp hphase
      obtain ⟨hunnamed, hold⟩ := h.orphaned hp hphase
      refine ⟨hunnamed, fun f hf => hold f ?_⟩
      rw [unlink_find] at hf
      split at hf
      · cases hf
      · exact hf }

theorem Sound.lock (h : s.Sound sha256) {library : ℕ} (hfree : s.locks library = none) (holder : Holder) :
    (s.setLock library (some holder)).Sound sha256 := by
  have hother : ∀ {d : ℕ} {k : Holder}, s.locks d = some k → (s.setLock library (some holder)).locks d = some k := by
    intro d k hd
    have hne : d ≠ library := by
      rintro rfl
      rw [hfree] at hd
      cases hd
    exact (Function.update_of_ne hne _ _).trans hd
  exact { h with upload_lock := fun hu hin => hother (h.upload_lock hu hin)
                 pass_lock := fun hp hd => hother (h.pass_lock hp hd) }

theorem Sound.unlock (h : s.Sound sha256) {library : ℕ}
    (hup : ∀ {i u}, s.uploads.find i = some u → u.phase.inTransaction = true → u.library ≠ library)
    (hpass : ∀ {i p}, s.passes.find i = some p → p.phase.directory ≠ some library) :
    (s.setLock library none).Sound sha256 :=
  { h with
    upload_lock := fun hu hin => (Function.update_of_ne (hup hu hin) _ _).trans (h.upload_lock hu hin)
    pass_lock := by
      intro i p d hp hd
      have hne : d ≠ library := by
        rintro rfl
        exact hpass hp hd
      exact (Function.update_of_ne hne _ _).trans (h.pass_lock hp hd) }

/-- An upload moves on without placing its file or committing. -/
theorem Sound.moveUpload (h : s.Sound sha256) (hrun : s.uploads.find id = some run) {phase : UploadPhase}
    (hout : phase.inTransaction = false) (hsettled : run.phase.isSettled = true → phase.isSettled = true) :
    (s.moveUpload id phase).Sound sha256 := by
  have hlocked : phase ≠ .locked := by
    rintro rfl
    cases hout
  have hpromoted : phase ≠ .promoted := by
    rintro rfl
    cases hout
  exact { h with
    upload_key := h.moveUpload_key phase
    upload_lock := by
      intro i u hu hin
      rcases moveUpload_cases hu with ⟨-, hu⟩ | ⟨rfl, v, -, rfl⟩
      · exact h.upload_lock hu hin
      · exact absurd (hin.symm.trans hout) (by simp)
    named := fun c hc => (h.named c hc).moveUpload hrun hsettled
    collected := fun k hk => ⟨(h.collected k hk).1, (h.collected k hk).2.moveUpload hrun hsettled⟩
    placed := fun f hf => (h.placed f hf).moveUpload hrun fun hP => ⟨hP.1, hlocked⟩
    promoted := by
      intro i u hu hphase
      rcases moveUpload_cases hu with ⟨-, hu⟩ | ⟨rfl, v, -, rfl⟩
      · exact h.promoted hu hphase
      · exact absurd hphase hpromoted
    listed := fun hp k hk => (h.listed hp k hk).moveUpload hrun fun hP => ⟨hP.1, hlocked⟩ }

/-- A pass moves on in the directory it holds. -/
theorem Sound.modifyPass (h : s.Sound sha256) (hpass : s.passes.find id = some pass) {f : Pass → Pass}
    (hstart : (f pass).startedAt = pass.startedAt)
    (hlock : ∀ d, (f pass).phase.directory = some d → s.locks d = some (.pass id))
    (hkeys : ∀ k ∈ (f pass).phase.keys,
      s.UploadedBy k fun run => (f pass).phase.directory = some run.library ∧ run.phase ≠ .locked)
    (horphan : ∀ directory pending k, (f pass).phase = .unlinking directory pending k →
      s.Unnamed k ∧ ∀ g, s.files.find k = some g → g.modified < (f pass).startedAt - (f pass).grace) :
    (s.modifyPass id f).Sound sha256 := by
  have hcases : ∀ {j : ℕ} {p : Pass}, (s.modifyPass id f).passes.find j = some p →
      s.passes.find j = some p ∨ (j = id ∧ p = f pass) := by
    intro j p hp
    have hfind : (s.passes.modify id f).find j = some p := hp
    rw [Table.find_modify] at hfind
    split at hfind
    · rename_i hj
      subst hj
      rw [hpass] at hfind
      exact .inr ⟨rfl, (Option.some.inj hfind).symm⟩
    · exact .inl hfind
  exact { h with
    pass_lock := by
      intro i p d hp hd
      rcases hcases hp with hp | ⟨rfl, rfl⟩
      · exact h.pass_lock hp hd
      · exact hlock d hd
    listed := by
      intro i p hp
      rcases hcases hp with hp | ⟨rfl, rfl⟩
      · exact h.listed hp
      · exact hkeys
    orphaned := by
      intro i p directory pending k hp hphase
      rcases hcases hp with hp | ⟨rfl, rfl⟩
      · exact h.orphaned hp hphase
      · exact horphan directory pending k hphase
    started := by
      intro i p hp
      rcases hcases hp with hp | ⟨rfl, rfl⟩
      · exact h.started hp
      · exact hstart ▸ h.started hpass }

theorem UploadedBy.insert (h : s.UploadedBy key P) (run : UploadRun) :
    UploadedBy { s with uploads := s.uploads.insert run } key P := by
  obtain ⟨j, u, hu, hsame⟩ := h
  refine ⟨j, u, ?_, hsame⟩
  have hlt := Table.lt_nextId_of_find hu
  rw [Table.find_insert, if_neg (by omega)]
  exact hu

theorem Sound.insertUpload (h : s.Sound sha256) (hlock : s.locks run.library = some (.upload s.uploads.nextId))
    (hphase : run.phase = .locked) (hfresh : ∀ {i u}, s.uploads.find i = some u → u.key ≠ run.key) :
    Sound sha256 { s with uploads := s.uploads.insert run } := by
  have hcases : ∀ {j : ℕ} {u : UploadRun}, (s.uploads.insert run).find j = some u →
      s.uploads.find j = some u ∨ (j = s.uploads.nextId ∧ u = run) := by
    intro j u hu
    rw [Table.find_insert] at hu
    split at hu
    · rename_i hj
      exact .inr ⟨hj, (Option.some.inj hu).symm⟩
    · exact .inl hu
  exact { h with
    upload_key := by
      intro i j u v hu hv hkey
      rcases hcases hu with hu' | ⟨rfl, rfl⟩ <;> rcases hcases hv with hv' | ⟨rfl, rfl⟩
      · exact h.upload_key hu' hv' hkey
      · exact absurd hkey (hfresh hu')
      · exact absurd hkey.symm (hfresh hv')
      · rfl
    upload_lock := by
      intro i u hu hin
      rcases hcases hu with hu | ⟨rfl, rfl⟩
      · exact h.upload_lock hu hin
      · exact hlock
    named := fun c hc => (h.named c hc).insert run
    collected := fun k hk => ⟨(h.collected k hk).1, (h.collected k hk).2.insert run⟩
    placed := fun f hf => (h.placed f hf).insert run
    promoted := by
      intro i u hu hpromoted
      rcases hcases hu with hu | ⟨rfl, rfl⟩
      · exact h.promoted hu hpromoted
      · rw [hphase] at hpromoted
        cases hpromoted
    listed := fun hp k hk => (h.listed hp k hk).insert run }

theorem Sound.insertPass (h : s.Sound sha256) (hphase : pass.phase = .between) (hstart : pass.startedAt = s.now) :
    Sound sha256 { s with passes := s.passes.insert pass } := by
  have hcases : ∀ {j : ℕ} {p : Pass}, (s.passes.insert pass).find j = some p → s.passes.find j = some p ∨ p = pass := by
    intro j p hp
    rw [Table.find_insert] at hp
    split at hp
    · exact .inr (Option.some.inj hp).symm
    · exact .inl hp
  exact { h with
    pass_lock := by
      intro i p d hp hd
      rcases hcases hp with hp | rfl
      · exact h.pass_lock hp hd
      · rw [hphase] at hd
        cases hd
    listed := by
      intro i p hp k hk
      rcases hcases hp with hp | rfl
      · exact h.listed hp k hk
      · rw [hphase] at hk
        cases hk
    orphaned := by
      intro i p directory pending k hp hunlinking
      rcases hcases hp with hp | rfl
      · exact h.orphaned hp hunlinking
      · rw [hphase] at hunlinking
        cases hunlinking
    started := by
      intro i p hp
      rcases hcases hp with hp | rfl
      · exact h.started hp
      · exact Nat.le_of_eq hstart }

/-- The file of an upload is placed under its lock, where no file was. -/
theorem Sound.promote (h : s.Sound sha256) (hrun : s.uploads.find id = some run) (hphase : run.phase = .locked)
    {f : StoredFile} (hkey : f.key = run.key) (hlibrary : f.library = run.library) (hbytes : f.bytes = run.output)
    (hfree : s.files.find f.key = none) :
    (Storage.moveUpload { s with files := s.files.insert f hfree } id .promoted).Sound sha256 := by
  have hother : ∀ {k : String} {g : StoredFile}, s.files.find k = some g → (s.files.insert f hfree).find k = some g := by
    intro k g hg
    rw [Rows.find_insert, if_neg, hg]
    rintro rfl
    rw [hfree] at hg
    cases hg
  have hmoved : ∀ {k : String} {P : UploadRun → Prop}, s.UploadedBy k P → (P run → P (run.move .promoted)) →
      (Storage.moveUpload { s with files := s.files.insert f hfree } id .promoted).UploadedBy k P := by
    intro k P hk hkeep
    have hk' : UploadedBy { s with files := s.files.insert f hfree } k P := hk
    exact hk'.moveUpload hrun hkeep
  have hunsettled : run.phase.isSettled = true → (run.move .promoted).phase.isSettled = true := by
    rw [hphase]
    intro hsettled
    cases hsettled
  have hold : ∀ {j : ℕ} {u : UploadRun},
      (Storage.moveUpload { s with files := s.files.insert f hfree } id .promoted).uploads.find j = some u →
      (j ≠ id ∧ s.uploads.find j = some u) ∨ (j = id ∧ u = run.move .promoted) := by
    intro j u hu
    rcases moveUpload_cases hu with hu | ⟨hj, v, hv, rfl⟩
    · exact .inl hu
    · rw [show s.uploads.find id = some v from hv] at hrun
      cases hrun
      exact .inr ⟨hj, rfl⟩
  exact { h with
    stored := by
      intro c hc
      obtain ⟨g, hg, hsame⟩ := h.stored c hc
      exact ⟨g, hother hg, hsame⟩
    upload_key := h.moveUpload_key .promoted
    upload_lock := by
      intro i u hu hin
      rcases hold hu with ⟨-, hu⟩ | ⟨rfl, rfl⟩
      · exact h.upload_lock hu hin
      · exact h.upload_lock (u := run) hrun (by rw [hphase]; rfl)
    named := fun c hc => hmoved (h.named c hc) hunsettled
    collected := fun k hk => ⟨(h.collected k hk).1, hmoved (h.collected k hk).2 hunsettled⟩
    placed := by
      intro g hg
      rcases (Rows.mem_insert hfree).mp hg with hg | rfl
      · exact hmoved (h.placed g hg) fun hP => ⟨hP.1, by simp [UploadRun.move]⟩
      · refine ⟨id, run.move .promoted, ?_, hkey.symm, hlibrary.symm, by simp [UploadRun.move]⟩
        show (s.uploads.modify id _).find id = _
        rw [Table.find_modify, if_pos rfl, hrun]
        rfl
    promoted := by
      intro i u hu hpromoted
      rcases hold hu with ⟨-, hu⟩ | ⟨rfl, rfl⟩
      · obtain ⟨g, hg, hsame⟩ := h.promoted hu hpromoted
        exact ⟨g, hother hg, hsame⟩
      · refine ⟨f, ?_, hbytes⟩
        show (s.files.insert f hfree).find run.key = some f
        rw [Rows.find_insert, if_pos hkey]
    listed := fun hp k hk => hmoved (h.listed hp k hk) fun hP => ⟨hP.1, by simp [UploadRun.move]⟩
    orphaned := by
      intro i p directory pending k hp hunlinking
      obtain ⟨hunnamed, hold⟩ := h.orphaned hp hunlinking
      refine ⟨hunnamed, fun g hg => hold g ?_⟩
      have hne : f.key ≠ k := by
        rintro rfl
        have hlisted := h.listed hp f.key (by rw [hunlinking]; simp [PassPhase.keys])
        exact (h.uploadedBy hlisted hrun hkey.symm).2 hphase
      have hfind : (s.files.insert f hfree).find k = some g := hg
      rwa [Rows.find_insert, if_neg hne] at hfind }

/-- The lock of a transaction goes with it. -/
theorem Sound.release {library : ℕ} {phase : UploadPhase} (hmoved : (s.moveUpload id phase).Sound sha256)
    (hout : phase.inTransaction = false) (hlock : s.locks library = some (.upload id)) :
    ((s.moveUpload id phase).setLock library none).Sound sha256 := by
  refine hmoved.unlock (fun hu hin hlibrary => ?_) fun hp hd => ?_
  · have hheld := hmoved.upload_lock hu hin
    rw [hlibrary, show (s.moveUpload id phase).locks library = some (.upload id) from hlock] at hheld
    simp only [Option.some.injEq, Holder.upload.injEq] at hheld
    rcases moveUpload_cases hu with ⟨hne, -⟩ | ⟨rfl, v, -, rfl⟩
    · exact hne hheld.symm
    · exact absurd (hin.symm.trans hout) (by simp)
  · have hheld := hmoved.pass_lock hp hd
    rw [show (s.moveUpload id phase).locks library = some (.upload id) from hlock] at hheld
    cases hheld

/-- The transaction of an upload whose file is in place commits its rows. -/
theorem Sound.commit (h : s.Sound sha256) (hrun : s.uploads.find id = some run) (hphase : run.phase = .promoted)
    {rows : State} (hrows : Preserves
      (fun c => c = run.upload.content run.library run.output.length (sha256 run.output)) s.rows rows) :
    ((Storage.moveUpload { s with rows := rows } id .committed).setLock run.library none).Sound sha256 := by
  have hlock : s.locks run.library = some (.upload id) := h.upload_lock hrun (by rw [hphase]; rfl)
  have hmoved : ∀ {k : String} {P : UploadRun → Prop}, s.UploadedBy k P → (P run → P (run.move .committed)) →
      (s.moveUpload id .committed).UploadedBy k P := fun hk hkeep => hk.moveUpload hrun hkeep
  have hself : (s.moveUpload id .committed).uploads.find id = some (run.move .committed) := by
    show (s.uploads.modify id _).find id = _
    rw [Table.find_modify, if_pos rfl, hrun]
    rfl
  have hcontents : ∀ c ∈ rows.contents.list, c ∈ s.rows.contents.list ∨
      (c.storageKey = run.key ∧ c.sizeBytes = run.output.length ∧ c.sha256 = sha256 run.output) := by
    intro c hc
    rcases hrows.added c hc with hc | rfl
    · exact .inl hc
    · exact .inr ⟨rfl, rfl, rfl⟩
  have hunnamed : ∀ {k : String}, s.Unnamed k → k ≠ run.key → Unnamed { s with rows := rows } k := by
    intro k hk hne c hc
    rcases hcontents c hc with hc | ⟨hkey, -⟩
    · exact hk c hc
    · rw [hkey]
      exact fun he => hne he.symm
  have hsound : (Storage.moveUpload { s with rows := rows } id .committed).Sound sha256 :=
    { h with
      rows := hrows.sound h.rows
      stored := by
        intro c hc
        rcases hcontents c hc with hc | ⟨hkey, hsize, hsha⟩
        · exact h.stored c hc
        · obtain ⟨f, hf, hbytes⟩ := h.promoted hrun hphase
          exact ⟨f, hkey ▸ hf, by rw [hbytes, hsize], by rw [hbytes, hsha]⟩
      upload_key := h.moveUpload_key .committed
      upload_lock := by
        intro i u hu hin
        rcases moveUpload_cases hu with ⟨-, hu⟩ | ⟨rfl, v, -, rfl⟩
        · exact h.upload_lock hu hin
        · cases hin
      named := by
        intro c hc
        rcases hcontents c hc with hc | ⟨hkey, -⟩
        · exact hmoved (h.named c hc) fun _ => rfl
        · exact ⟨id, run.move .committed, hself, hkey.symm, rfl⟩
      collected := by
        intro k hk
        have hk : k ∈ rows.removals := hk
        rw [hrows.removals] at hk
        obtain ⟨hno, hrun'⟩ := h.collected k hk
        refine ⟨hunnamed hno fun hkey => ?_, hmoved hrun' fun _ => rfl⟩
        have hsettled := h.uploadedBy hrun' hrun hkey.symm
        rw [hphase] at hsettled
        cases hsettled
      placed := fun f hf => hmoved (h.placed f hf) fun hP => ⟨hP.1, by simp [UploadRun.move]⟩
      promoted := by
        intro i u hu hpromoted
        rcases moveUpload_cases hu with ⟨-, hu⟩ | ⟨rfl, v, -, rfl⟩
        · exact h.promoted hu hpromoted
        · cases hpromoted
      listed := fun hp k hk => hmoved (h.listed hp k hk) fun hP => ⟨hP.1, by simp [UploadRun.move]⟩
      orphaned := by
        intro i p directory pending k hp hunlinking
        obtain ⟨hno, hold⟩ := h.orphaned hp hunlinking
        refine ⟨hunnamed hno fun hkey => ?_, hold⟩
        have hlisted := h.listed hp k (by rw [hunlinking]; simp [PassPhase.keys])
        have hheld := h.pass_lock hp (h.uploadedBy hlisted hrun hkey.symm).1
        rw [hlock] at hheld
        cases hheld }
  exact hsound.release rfl hlock

/-- An upload leaves its transaction, if it is in one, without a commit. -/
theorem Sound.abandonUpload (h : s.Sound sha256) (hrun : s.uploads.find id = some run) {phase : UploadPhase}
    (hout : phase.inTransaction = false) (hsettled : run.phase.isSettled = true → phase.isSettled = true) :
    (s.abandonUpload id run phase).Sound sha256 := by
  have hmoved := h.moveUpload hrun hout hsettled
  unfold Storage.abandonUpload
  split
  · rename_i hin
    exact hmoved.release hout (h.upload_lock hrun hin)
  · exact hmoved

theorem Sound.settlePass (h : s.Sound sha256) (hpass : s.passes.find id = some pass) {phase : PassPhase}
    (hout : phase.directory = none) : (s.modifyPass id (Pass.move phase)).Sound sha256 := by
  have hkeys := PassPhase.keys_of_directory hout
  refine h.modifyPass hpass rfl (fun d hphase => ?_) (fun k hk => ?_) fun d pending k hphase => ?_
  · rw [show (pass.move phase).phase = phase from rfl, hout] at hphase
    cases hphase
  · rw [show (pass.move phase).phase = phase from rfl, hkeys] at hk
    cases hk
  · rw [show (pass.move phase).phase = phase from rfl] at hphase
    rw [hphase] at hout
    cases hout

/-- A pass leaves its directory. -/
theorem Sound.releasePass (h : s.Sound sha256) (hpass : s.passes.find id = some pass) {directory : ℕ}
    (hd : pass.phase.directory = some directory) {phase : PassPhase} (hout : phase.directory = none) :
    ((s.modifyPass id (Pass.move phase)).setLock directory none).Sound sha256 := by
  have hmoved : (s.modifyPass id (Pass.move phase)).Sound sha256 := h.settlePass hpass hout
  have hlock := h.pass_lock hpass hd
  refine hmoved.unlock (fun hu hin hlibrary => ?_) fun {i p} hp hpd => ?_
  · have hheld := h.upload_lock hu hin
    rw [hlibrary, hlock] at hheld
    cases hheld
  · have hheld : s.locks directory = some (.pass i) := hmoved.pass_lock hp hpd
    rw [hlock] at hheld
    simp only [Option.some.injEq, Holder.pass.injEq] at hheld
    subst hheld
    have hfind : (s.passes.modify id (Pass.move phase)).find id = some p := hp
    rw [Table.find_modify, if_pos rfl, hpass] at hfind
    cases hfind
    rw [show (pass.move phase).phase = phase from rfl, hout] at hpd
    cases hpd

/-- The rows after any call but an upload. -/
theorem Sound.call (h : s.Sound sha256) (env : Env) {call : Call} (hadds : ∀ c, ¬call.adds c) :
    Sound sha256 { s with rows := Tx.exec (call.run cfg env) s.rows } := by
  have hkeeps : Keeps call.adds s.rows (Tx.exec (call.run cfg env) s.rows) := call.keeps
  have hrows := hkeeps.sound h.rows
  cases hkeeps with
  | preserved hkept =>
    refine h.setRows hrows (fun c hc => (hkept.added c hc).resolve_right (hadds c)) fun k hk => ?_
    rw [hkept.removals] at hk
    exact .inl hk
  | @collected i content hk hfree ht =>
    have hmem := Rows.mem_of_find hk
    refine h.setRows hrows (fun c hc => ?_) fun k hk => ?_
    · rw [ht] at hc
      exact (Rows.mem_delete.mp hc).1
    · rw [ht] at hk ⊢
      rcases List.mem_append.mp hk with hk | hk
      · exact .inl hk
      · obtain rfl := List.mem_singleton.mp hk
        refine .inr ⟨⟨content, hmem, rfl⟩, fun c hc hsame => ?_⟩
        obtain ⟨hc, hother⟩ := Rows.mem_delete.mp hc
        rw [h.rows.keys c hc content hmem hsame] at hother
        simp at hother

/-- The rows before the transaction of an upload. -/
theorem Sound.prepare (h : s.Sound sha256) {rows : State} (hrows : Preserves (fun _ => False) s.rows rows) :
    Sound sha256 { s with rows := rows } := by
  refine h.setRows (hrows.sound h.rows) (fun c hc => (hrows.added c hc).resolve_right not_false) fun k hk => ?_
  rw [hrows.removals] at hk
  exact .inl hk

/-- A listed file that is checked stays listed, and an orphan is old and without a row. -/
theorem Sound.checkFile (h : s.Sound sha256) (hpass : s.passes.find id = some pass) {directory : ℕ}
    {pending : List String} (hphase : pass.phase = .inside directory (key :: pending)) :
    (s.modifyPass id (Pass.move (if s.isOrphan pass key then .unlinking directory pending key
      else .inside directory pending))).Sound sha256 := by
  have hlock := h.pass_lock (d := directory) hpass (by rw [hphase]; rfl)
  have hlisted : ∀ k ∈ key :: pending, s.UploadedBy k fun run => some directory = some run.library ∧ run.phase ≠ .locked := by
    intro k hk
    have hrun := h.listed hpass k (by rw [hphase]; exact hk)
    rw [hphase] at hrun
    exact hrun
  by_cases horphan : s.isOrphan pass key = true
  · rw [if_pos horphan]
    refine h.modifyPass hpass rfl (fun d hd => ?_) hlisted fun d rest k hunlinking => ?_
    · cases hd
      exact hlock
    · cases hunlinking
      simp only [isOrphan, decide_eq_true_eq, List.all_eq_true] at horphan
      obtain ⟨hno, f, hf, hold⟩ := horphan
      refine ⟨hno, fun g hg => ?_⟩
      rw [Option.mem_def.mp hf] at hg
      cases hg
      exact hold
  · rw [if_neg horphan]
    refine h.modifyPass hpass rfl (fun d hd => ?_) (fun k hk => hlisted k (List.mem_cons_of_mem _ hk))
      fun d rest k hunlinking => ?_
    · cases hd
      exact hlock
    · cases hunlinking

/-- Nothing owns the file a pass is about to unlink. -/
theorem Sound.unowned (h : s.Sound sha256) (hpass : s.passes.find id = some pass) {directory : ℕ}
    {pending : List String} (hphase : pass.phase = .unlinking directory pending key) :
    s.Unnamed key ∧ ∀ {i u}, s.uploads.find i = some u → u.phase.inTransaction = true → u.key ≠ key := by
  refine ⟨(h.orphaned hpass hphase).1, fun hu hin hkey => ?_⟩
  have hlisted := h.listed hpass key (by rw [hphase]; simp [PassPhase.keys])
  have hheld := h.pass_lock hpass (h.uploadedBy hlisted hu hkey).1
  rw [h.upload_lock hu hin] at hheld
  cases hheld

theorem Sound.unlinkFile (h : s.Sound sha256) (hpass : s.passes.find id = some pass) {directory : ℕ}
    {pending : List String} (hphase : pass.phase = .unlinking directory pending key) :
    ((if pass.dryRun then s else s.unlink key).modifyPass id fun pass =>
      { pass with removed := pass.removed + 1, phase := .inside directory pending }).Sound sha256 := by
  have hunlinked : (if pass.dryRun then s else s.unlink key).Sound sha256 := by
    obtain ⟨hno, hrun⟩ := h.unowned hpass hphase
    split
    · exact h
    · exact h.unlink hno fun hu hkey hpromoted => hrun hu (by rw [hpromoted]; rfl) hkey
  have hfind : (if pass.dryRun then s else s.unlink key).passes.find id = some pass := by
    split <;> exact hpass
  refine hunlinked.modifyPass hfind rfl (fun d hd => ?_) (fun k hk => ?_) fun d rest k hunlinking => ?_
  · cases hd
    exact hunlinked.pass_lock hfind (by rw [hphase]; rfl)
  · have hrun := hunlinked.listed hfind k (by rw [hphase]; exact List.mem_cons_of_mem _ hk)
    rw [hphase] at hrun
    exact hrun
  · cases hunlinking

theorem Sound.step (h : s.Sound sha256) {a : Action} (ha : ∀ i, a ≠ .failAfterCommit i)
    (hs : s.step cfg sha256 a = some t) : t.Sound sha256 := by
  cases step_taken hs with
  | tick elapsed => exact h.tick elapsed
  | call env call hadds => exact h.call env hadds
  | unlinkCollected hk =>
    obtain ⟨hno, hrun⟩ := h.collected _ hk
    refine h.unlink hno fun hu hkey hpromoted => ?_
    have hsettled := h.uploadedBy hrun hu hkey
    rw [hpromoted] at hsettled
    cases hsettled
  | refused hrows => exact h.prepare hrows
  | begun hrows hfree hphase hfresh hlibrary =>
    subst hlibrary
    have hlocked := (h.prepare hrows).lock hfree (.upload s.uploads.nextId)
    exact hlocked.insertUpload (Function.update_self _ _ _) hphase hfresh
  | promote hrun hphase hfree => exact h.promote hrun hphase rfl rfl rfl hfree
  | commit hrun hphase hrows => exact h.commit hrun hphase hrows
  | @failUpload id run hrun hin =>
    refine h.abandonUpload hrun rfl fun hsettled => ?_
    revert hin hsettled
    cases run.phase <;> simp [UploadPhase.inTransaction, UploadPhase.isSettled]
  | @failAfterCommit id => exact absurd rfl (ha id)
  | finishUpload hrun => exact h.moveUpload hrun rfl fun _ => rfl
  | @cleanup id run accepted unlinked hrun hphase =>
    have hunlinked : (if accepted = true ∧ unlinked = true then s.unlink run.key else s).Sound sha256 := by
      split
      · refine h.unlink (fun c hc hkey => ?_) fun hu hkey hpromoted => ?_
        · have hsettled := h.uploadedBy (h.named c hc) hrun hkey.symm
          rw [hphase] at hsettled
          cases hsettled
        · obtain rfl := h.upload_key hu hrun hkey
          rw [hu] at hrun
          cases hrun
          rw [hphase] at hpromoted
          cases hpromoted
      · exact h
    have hfind : (if accepted ∧ unlinked then s.unlink run.key else s).uploads.find id = some run := by
      split <;> exact hrun
    exact hunlinked.moveUpload hfind rfl fun _ => rfl
  | crashUpload hrun => exact h.abandonUpload hrun rfl fun _ => rfl
  | startPass hgrace => exact h.insertPass rfl rfl
  | @enterDirectory id pass directory rest hpass hphase hdirectories hfree =>
    have hlocked := h.lock hfree (.pass id)
    refine hlocked.modifyPass hpass rfl (fun d hd => ?_) (fun k hk => ?_) fun d rest k hunlinking => ?_
    · cases hd
      exact Function.update_self _ _ _
    · obtain ⟨f, hf, rfl⟩ := List.mem_map.mp hk
      obtain ⟨hf, hlibrary⟩ := List.mem_filter.mp hf
      simp only [decide_eq_true_eq] at hlibrary
      refine (hlocked.placed f hf).mono fun run hrun => ⟨?_, hrun.2⟩
      rw [hrun.1, hlibrary]
      rfl
    · cases hunlinking
  | checkFile hpass hphase => exact h.checkFile hpass hphase
  | unlinkFile hpass hphase => exact h.unlinkFile hpass hphase
  | leaveDirectory hpass hphase => exact h.releasePass hpass (by rw [hphase]; rfl) rfl
  | finishPass hpass => exact h.settlePass hpass rfl
  | crashInside hpass hd => exact h.releasePass hpass hd rfl
  | crashBetween hpass => exact h.settlePass hpass rfl

end

end Storage

end FireDash.FileLibrary
