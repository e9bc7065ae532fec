import FireDash.FileLibrary.Pinning

/-! The accepted PDFs beside the rows: uploads, the collector and the reconciliation of orphans
as processes that interleave, fail and crash. -/
namespace FireDash.FileLibrary

open Publications (Actor Content Digest Time)

/-- A PDF below the accepted root, in the directory of its library. -/
structure StoredFile where
  library : ℕ
  key : String
  bytes : List UInt8
  modified : Time
  deriving DecidableEq

/-- The part of `upload_pdf` before its transaction: the name, and what was measured of the
sanitized file. -/
def prepareUpload (cfg : Config) (env : Env) (actor : Actor) (libraryId : ℕ) (upload : Upload) :
    Service (String × ℕ × Digest) := do
  let _ ← activeTemporaryAccess env actor
  let library ← getLibrary libraryId
  Tx.ofExcept (requireLibrary env actor library.owner)
  let name ← Tx.ofExcept (nameValue upload.name true)
  Tx.ensure (upload.size ≤ cfg.maxFileBytes) (.libraryError "PDF exceeds the file size limit.")
  Tx.ensure (upload.approvalId.isNone)
    (.libraryError "Upload approvals are obsolete. Upload the PDF without a capacity review.")
  let (size, digest) ← Tx.ofExcept upload.prepared
  Tx.ensure (size ≤ cfg.maxFileBytes) (.libraryError "Sanitized PDF exceeds the file size limit.")
  return (name, size, digest)

/-- Where an upload stands. It holds the storage lock of its library in its transaction, while
it is `locked` or `promoted`. -/
inductive UploadPhase where
  | locked
  | promoted
  | committed
  | failed (accepted : Bool)
  | ended
  deriving DecidableEq

def UploadPhase.inTransaction : UploadPhase → Bool
  | .locked | .promoted => true
  | _ => false

structure UploadRun where
  actor : Actor
  library : ℕ
  upload : Upload
  name : String
  output : List UInt8
  modified : Time
  phase : UploadPhase := .locked

/-- The path of the upload below the accepted root. -/
def UploadRun.key (run : UploadRun) : String := run.upload.storageKey run.library

def UploadRun.move (phase : UploadPhase) (run : UploadRun) : UploadRun := { run with phase := phase }

/-- Where a reconciliation stands. It holds the storage lock of the directory it is in. -/
inductive PassPhase where
  | between
  | inside (directory : ℕ) (pending : List String)
  | unlinking (directory : ℕ) (pending : List String) (key : String)
  | completed
  | crashed
  deriving DecidableEq

def PassPhase.directory : PassPhase → Option ℕ
  | .inside directory _ | .unlinking directory _ _ => some directory
  | _ => none

structure Pass where
  grace : Time
  startedAt : Time
  dryRun : Bool
  directories : List ℕ
  phase : PassPhase := .between
  removed : ℕ := 0

def Pass.move (phase : PassPhase) (pass : Pass) : Pass := { pass with phase := phase }

inductive Holder where
  | upload (id : ℕ)
  | pass (id : ℕ)
  deriving DecidableEq

/-- The committed rows, the accepted files, the storage locks, and the processes. -/
structure Storage where
  rows : State := .empty
  files : Rows StoredFile.key := {}
  locks : ℕ → Option Holder := fun _ => none
  uploads : Table UploadRun := ⟨[]⟩
  passes : Table Pass := ⟨[]⟩
  now : Time := 0

inductive Action where
  | tick (elapsed : Time)
  | call (env : Env) (call : Call)
  | unlinkCollected (key : String)
  | beginUpload (env : Env) (actor : Actor) (library : ℕ) (upload : Upload) (output : List UInt8) (modified : Time)
  | promote (id : ℕ)
  | commit (env : Env) (id : ℕ)
  | failUpload (id : ℕ)
  | failAfterCommit (id : ℕ)
  | finishUpload (id : ℕ)
  | cleanup (id : ℕ) (unlinked : Bool)
  | crashUpload (id : ℕ)
  | startPass (grace : Time) (dryRun : Bool)
  | enterDirectory (id : ℕ)
  | checkFile (id : ℕ)
  | unlinkFile (id : ℕ)
  | leaveDirectory (id : ℕ)
  | finishPass (id : ℕ)
  | crashPass (id : ℕ)

namespace Storage

def setLock (s : Storage) (library : ℕ) (holder : Option Holder) : Storage :=
  { s with locks := Function.update s.locks library holder }

def unlink (s : Storage) (key : String) : Storage :=
  { s with files := s.files.delete fun f => f.key = key }

def moveUpload (s : Storage) (id : ℕ) (phase : UploadPhase) : Storage :=
  { s with uploads := s.uploads.modify id (UploadRun.move phase) }

def modifyPass (s : Storage) (id : ℕ) (f : Pass → Pass) : Storage :=
  { s with passes := s.passes.modify id f }

/-- A file no content row names, older than the grace period of the pass. -/
def isOrphan (s : Storage) (pass : Pass) (key : String) : Bool :=
  (s.rows.contents.list.all fun c => c.storageKey ≠ key) ∧
    ∃ f ∈ s.files.find key, f.modified < pass.startedAt - pass.grace

/-- `directory.glob("*.pdf")`. -/
def glob (s : Storage) (directory : ℕ) : List String :=
  (s.files.list.filter fun f => f.library = directory).map (·.key)

/-- The pass a call of `reconcile_orphans` starts. -/
def newPass (s : Storage) (grace : Time) (dryRun : Bool) : Pass where
  grace := grace
  startedAt := s.now
  dryRun := dryRun
  directories := (s.files.list.map (·.library)).dedup

/-- The transaction of an upload ends without a commit, and its lock goes with it. -/
def abandonUpload (s : Storage) (id : ℕ) (run : UploadRun) (phase : UploadPhase) : Storage :=
  if run.phase.inTransaction then (s.moveUpload id phase).setLock run.library none else s.moveUpload id phase

/-- One step of one process; `none` when the process cannot take it. -/
def step (cfg : Config) (sha256 : List UInt8 → Digest) (s : Storage) : Action → Option Storage
  | .tick elapsed => some { s with now := s.now + elapsed }
  | .call env call =>
    match call with
    | .uploadPdf .. => none
    | call => some { s with rows := Tx.exec (call.run cfg env) s.rows }
  | .unlinkCollected key => if key ∈ s.rows.removals then some (s.unlink key) else none
  | .beginUpload env actor library upload output modified =>
    match prepareUpload cfg env actor library { upload with prepared := .ok (output.length, sha256 output) } s.rows with
    | (.error _, rows) => some { s with rows := rows }
    | (.ok (name, _), rows) =>
      -- The key holds a new UUID, and the storage lock is free.
      if s.locks library = none ∧ modified ≤ s.now ∧
          s.uploads.any (fun run => run.key = upload.storageKey library) = false then
        let run : UploadRun := { actor, library, upload, name, output, modified }
        let begun : Storage := { s with rows := rows, uploads := s.uploads.insert run }
        some (begun.setLock library (some (.upload s.uploads.nextId)))
      else none
  | .promote id => do
    let run ← s.uploads.find id
    if run.phase = .locked then
      let files ← s.files.insert? { library := run.library, key := run.key, bytes := run.output, modified := run.modified }
      some ({ s with files := files }.moveUpload id .promoted)
    else none
  | .commit env id => do
    let run ← s.uploads.find id
    if run.phase = .promoted then
      match acceptUpload cfg env run.actor run.library run.name run.upload run.output.length (sha256 run.output) s.rows with
      | (.ok _, rows) => some (({ s with rows := rows }.moveUpload id .committed).setLock run.library none)
      | (.error _, _) => none
    else none
  | .failUpload id => do
    let run ← s.uploads.find id
    if run.phase.inTransaction then some (s.abandonUpload id run (.failed (run.phase = .promoted))) else none
  | .failAfterCommit id => do
    let run ← s.uploads.find id
    if run.phase = .committed then some (s.moveUpload id (.failed true)) else none
  | .finishUpload id => do
    let run ← s.uploads.find id
    if run.phase = .committed then some (s.moveUpload id .ended) else none
  | .cleanup id unlinked => do
    let run ← s.uploads.find id
    match run.phase with
    | .failed accepted =>
      let s := if accepted ∧ unlinked then s.unlink run.key else s
      some (s.moveUpload id .ended)
    | _ => none
  | .crashUpload id => do
    let run ← s.uploads.find id
    some (s.abandonUpload id run .ended)
  | .startPass grace dryRun =>
    if grace < Publications.day then none else some { s with passes := s.passes.insert (s.newPass grace dryRun) }
  | .enterDirectory id => do
    let pass ← s.passes.find id
    match pass.phase, pass.directories with
    | .between, directory :: rest =>
      if s.locks directory = none then
        some ((s.modifyPass id fun pass => { pass with
          directories := rest
          phase := .inside directory (s.glob directory) }).setLock directory (some (.pass id)))
      else none
    | _, _ => none
  | .checkFile id => do
    let pass ← s.passes.find id
    match pass.phase with
    | .inside directory (key :: pending) =>
      let phase := if s.isOrphan pass key then .unlinking directory pending key else .inside directory pending
      some (s.modifyPass id (Pass.move phase))
    | _ => none
  | .unlinkFile id => do
    let pass ← s.passes.find id
    match pass.phase with
    | .unlinking directory pending key =>
      let s := if pass.dryRun then s else s.unlink key
      some (s.modifyPass id fun pass => { pass with removed := pass.removed + 1, phase := .inside directory pending })
    | _ => none
  | .leaveDirectory id => do
    let pass ← s.passes.find id
    match pass.phase with
    | .inside directory [] => some ((s.modifyPass id (Pass.move .between)).setLock directory none)
    | _ => none
  | .finishPass id => do
    let pass ← s.passes.find id
    match pass.phase, pass.directories with
    | .between, [] => some (s.modifyPass id (Pass.move .completed))
    | _, _ => none
  | .crashPass id => do
    let pass ← s.passes.find id
    match pass.phase.directory with
    | some directory => some ((s.modifyPass id (Pass.move .crashed)).setLock directory none)
    | none => if pass.phase = .completed then none else some (s.modifyPass id (Pass.move .crashed))

/-! ### A reconciliation that runs alone -/

def sweepFile (pass : Pass) (r : ℕ × Storage) (key : String) : ℕ × Storage :=
  if r.2.isOrphan pass key then (r.1 + 1, if pass.dryRun then r.2 else r.2.unlink key) else r

def sweepDirectory (pass : Pass) (r : ℕ × Storage) (directory : ℕ) : ℕ × Storage :=
  (r.2.glob directory).foldl (sweepFile pass) r

/-- `reconcile_orphans`, with its count; `none` is the refusal of a grace period below one day. -/
def reconcileOrphans (s : Storage) (grace : Time) (dryRun : Bool) : Option (ℕ × Storage) :=
  let pass := s.newPass grace dryRun
  if grace < Publications.day then none else some (pass.directories.foldl (sweepDirectory pass) (0, s))

end Storage

/-- The system, started without accepted files. -/
def storageSystem (cfg : Config) (sha256 : List UInt8 → Digest) : Machine Storage Action where
  init s := s = {}
  step s a t := s.step cfg sha256 a = some t

end FireDash.FileLibrary
