import FireDash.Ingestion.Parsers

/-! PDF packages: a manifest and the PDF members of a ZIP archive, one row for one member. -/
namespace FireDash.Ingestion.PdfPackages

open Json (Double Text Value strip text)
open Parsers

inductive Domain where
  | firePlans
  | klgvPlans
  deriving DecidableEq

def firePlanColumns : List String :=
  ["external_identifier", "filename", "object_name", "address", "postal_code", "city", "longitude", "latitude", "fsd_location",
    "bmz_location", "rwa_info", "action"]

def klgvColumns : List String :=
  ["external_identifier", "filename", "object_name", "address", "postal_code", "city", "longitude", "latitude", "action"]

def Domain.columns : Domain → List String
  | .firePlans => firePlanColumns
  | .klgvPlans => klgvColumns

/-- `manifest_member_name` -/
def manifestMemberName : Domain → Text
  | .firePlans => text "fire-plans-manifest-v1.csv"
  | .klgvPlans => text "manifest.csv"

def missingManifest : Domain → String
  | .firePlans => "PDF package requires exactly one fire-plans-manifest-v1.csv."
  | .klgvPlans => "PDF package requires exactly one manifest.csv."

inductive Action where
  | upsert
  | deactivate
  deriving DecidableEq

structure PdfPackageEntry where
  externalIdentifier : Text
  filename : Option Text
  title : Text
  address : Text
  postalCode : Option Text
  city : Option Text
  fsdLocation : Option Text
  bmzLocation : Option Text
  rwaInfo : Option Text
  category : Text := []
  latitude : Option Double
  longitude : Option Double
  action : Action
  pdfBytes : Option Bytes
  deriving DecidableEq

/-! ### Archives -/

/-- A member of an archive, and what reading it gives; it may be damaged, encrypted or compressed in an unknown way. -/
structure ZipMember where
  filename : Text
  fileSize : ℕ
  externalAttr : ℕ
  content : Option Bytes

/-- What opening an archive raises. -/
inductive ZipFailure where
  | badZipFile
  | other
  deriving DecidableEq

/-- `archive.read`; a name that is not there is a `KeyError`. -/
def readMember (members : List ZipMember) (name : Text) (missing : String) : Parsed Bytes :=
  match members.find? fun member => member.filename = name with
  | none => invalid missing
  | some member =>
    match member.content with
    | some bytes => .ok bytes
    | none => .error .zipError

/-- The parts of a POSIX path below its root. -/
def pathParts (path : Text) : List Text := (path.splitOn 47).filter fun part => part ≠ [] ∧ part ≠ text "."

/-- `PurePosixPath(path).name` -/
def pathName (path : Text) : Text := (pathParts path).getLastD []

/-- `_safe_member` -/
def safeMember (member : ZipMember) : Parsed Unit := do
  check (¬(member.filename.head? = some 47 ∨ text ".." ∈ pathParts member.filename ∨ 92 ∈ member.filename ∨
    member.filename.getLast? = some 47)) "PDF package contains an unsafe member path."
  check (member.externalAttr >>> 16 &&& 0o170000 ≠ 0o120000) "PDF package must not contain symbolic links."

/-! ### The manifest -/

/-- An early row without its empty location cells has its action in their place. -/
def compactRow (row : Row) : Row :=
  match row.get "action", row.get "fsd_location" with
  | .null, .str s =>
    if s = text "upsert" ∨ s = text "deactivate" then
      { row with fields :=
          Json.setField (Json.setField (Json.setField (Json.setField row.fields (text "action") (.str s)) (text "fsd_location") (.str []))
            (text "bmz_location") (.str [])) (text "rwa_info") (.str []) }
    else row
  | _, _ => row

/-- `_read_manifest` -/
def readManifest (settings : Settings) (domain : Domain) (payload : Bytes) : Parsed (List Row) := do
  let t ← orInvalid (decodeSig payload) "PDF package manifest must be UTF-8."
  let rows ← dictReader t (sameColumns domain.columns) "PDF package manifest columns do not match the documented schema."
  check (rows.length ≤ settings.maxPdfPackageDocuments) "PDF package document limit exceeded."
  return if domain = .firePlans then rows.map compactRow else rows

/-- `row[field].strip()` -/
def stripped (row : Row) (field : String) : Parsed Text :=
  match row.get field with
  | .str s => .ok (strip s)
  | _ => .error .attributeError

/-- A cell as it is. -/
def cell (row : Row) (field : String) : Option Text :=
  match row.get field with
  | .str s => some s
  | _ => none

/-- `_required` -/
def requiredCell (row : Row) (field : String) (number : ℕ) : Parsed Text := do
  let value ← stripped row field
  check (value ≠ [] ∧ value.length ≤ 255) s!"Row {number}: {field} is required."
  return value

/-- `_optional_coordinate` -/
def optionalCoordinate (settings : Settings) (row : Row) (field : String) (lower upper : ℤ) (number : ℕ) : Parsed (Option Double) :=
  match row.get field with
  | .str [] => .ok none
  | .str s =>
    match Floats.readFloat settings.decimal s with
    | some x => if Floats.between lower upper x = true then .ok (some x) else invalid s!"Row {number}: coordinate is out of range."
    | none => invalid s!"Row {number}: coordinate is invalid."
  -- Only `ValueError` is caught.
  | _ => .error .typeError

def rowAction (row : Row) (number : ℕ) : Parsed Action :=
  match row.get "action" with
  | .null => .ok .upsert
  | .str s =>
    if s = [] ∨ s = text "upsert" then .ok .upsert
    else if s = text "deactivate" then .ok .deactivate
    else invalid s!"Row {number}: invalid action."
  | _ => invalid s!"Row {number}: invalid action."

/-! ### Identities -/

inductive Identity where
  | externalIdentifier (value : Text)
  | address (value : Text)
  | objectNameAddress (value : Text)
  deriving DecidableEq

/-- The identifier, the address and the identity of a row. -/
structure RowIdentity where
  externalIdentifier : Text
  address : Text
  identity : Identity

/-- `_identity` -/
def firePlanIdentity (externalIdentifier address : Text) (number : ℕ) : Parsed Identity :=
  if externalIdentifier ≠ [] then .ok (.externalIdentifier externalIdentifier)
  else if address ≠ [] then .ok (.address address)
  else invalid s!"Row {number}: external_identifier or address is required for a Fire Plan."

def klgvAddress (row : Row) (action : Action) (number : ℕ) : Parsed Text :=
  match action with
  | .upsert => requiredCell row "address" number
  | .deactivate => .ok []

def klgvIdentity (row : Row) (externalIdentifier address : Text) : Parsed Identity :=
  if externalIdentifier ≠ [] then .ok (.externalIdentifier externalIdentifier)
  else (fun name => .objectNameAddress (name ++ 0 :: address)) <$> stripped row "object_name"

def rowIdentity (domain : Domain) (row : Row) (action : Action) (number : ℕ) : Parsed RowIdentity :=
  match domain with
  | .firePlans => do
    let externalIdentifier ← stripped row "external_identifier"
    let address ← stripped row "address"
    let identity ← firePlanIdentity externalIdentifier address number
    return ⟨externalIdentifier, address, identity⟩
  | .klgvPlans => do
    let externalIdentifier ← stripped row "external_identifier"
    let address ← klgvAddress row action number
    let identity ← klgvIdentity row externalIdentifier address
    return ⟨externalIdentifier, address, identity⟩

/-! ### Rows -/

def pdfSuffix : Text := text ".pdf"

/-- The PDF of a row, with the name it declares. -/
structure RowPdf where
  filename : Option Text
  pdf : Option Bytes
  declared : List Text

def rowPdf (settings : Settings) (members : List ZipMember) (declared : List Text) (row : Row) (action : Action) (number : ℕ) :
    Parsed RowPdf :=
  match action with
  | .deactivate => do
    check (cell row "filename" = none ∨ cell row "filename" = some []) "Deactivate rows must not reference a PDF."
    return ⟨cell row "filename", none, declared⟩
  | .upsert => do
    let filename ← orInvalid (cell row "filename") s!"Row {number}: filename is invalid."
    check (filename ≠ [] ∧ filename = pathName filename ∧ pdfSuffix <:+ filename) s!"Row {number}: filename is invalid."
    check (filename ∉ declared) "PDF package manifest declares one PDF more than once."
    let pdf ← readMember members filename s!"Row {number}: declared PDF is missing."
    check (pdf.length ≤ settings.maxPdfInputBytes) s!"Row {number}: PDF exceeds the configured size limit."
    return ⟨some filename, some pdf, filename :: declared⟩

/-- The texts an entry takes from its row. -/
structure RowTexts where
  title : Text
  postalCode : Option Text
  city : Option Text
  fsdLocation : Option Text
  bmzLocation : Option Text
  rwaInfo : Option Text

def rowTexts (domain : Domain) (row : Row) (action : Action) (number : ℕ) : Parsed RowTexts :=
  match domain, action with
  | .firePlans, .upsert => do
    let title ← stripped row "object_name"
    return ⟨title, cell row "postal_code", cell row "city", cell row "fsd_location", cell row "bmz_location", cell row "rwa_info"⟩
  | .firePlans, .deactivate =>
    return ⟨[], cell row "postal_code", cell row "city", cell row "fsd_location", cell row "bmz_location", cell row "rwa_info"⟩
  | .klgvPlans, .upsert => do
    let title ← requiredCell row "object_name" number
    let postalCode ← requiredCell row "postal_code" number
    let city ← requiredCell row "city" number
    return ⟨title, some postalCode, some city, some [], some [], some []⟩
  | .klgvPlans, .deactivate => return ⟨[], some [], some [], some [], some [], some []⟩

/-- The identities and the names of the rows before. -/
structure Staged where
  seen : List Identity := []
  declared : List Text := []

structure StagedEntry where
  entry : PdfPackageEntry
  staged : Staged

def packageRow (settings : Settings) (domain : Domain) (members : List ZipMember) (staged : Staged) (row : Row) (number : ℕ) :
    Parsed StagedEntry := do
  let action ← rowAction row number
  let id ← rowIdentity domain row action number
  check (id.identity ∉ staged.seen) "PDF package has duplicate Fire Plan identities."
  let document ← rowPdf settings members staged.declared row action number
  let longitude ← optionalCoordinate settings row "longitude" (-180) 180 number
  let latitude ← optionalCoordinate settings row "latitude" (-90) 90 number
  let texts ← rowTexts domain row action number
  return {
    entry := {
      externalIdentifier := id.externalIdentifier, filename := document.filename, title := texts.title, address := id.address
      postalCode := texts.postalCode, city := texts.city, fsdLocation := texts.fsdLocation, bmzLocation := texts.bmzLocation
      rwaInfo := texts.rwaInfo, latitude := latitude, longitude := longitude, action := action, pdfBytes := document.pdf }
    staged := ⟨id.identity :: staged.seen, document.declared⟩ }

structure StagedEntries where
  entries : List PdfPackageEntry
  declared : List Text

def packageRows (settings : Settings) (domain : Domain) (members : List ZipMember) : Staged → List (Row × ℕ) → Parsed StagedEntries
  | staged, [] => return ⟨[], staged.declared⟩
  | staged, (row, number) :: rows => do
    let first ← packageRow settings domain members staged row number
    let rest ← packageRows settings domain members first.staged rows
    return ⟨first.entry :: rest.entries, rest.declared⟩

/-- `zipfile.ZipFile`, whose other exceptions are not caught. -/
def openArchive (zipFile : Bytes → Except ZipFailure (List ZipMember)) (payload : Bytes) : Parsed (List ZipMember) :=
  match zipFile payload with
  | .ok members => .ok members
  | .error .badZipFile => invalid "PDF package is not a valid ZIP archive."
  | .error .other => .error .zipError

/-- The checks of the members, before any is read. -/
def checkMembers (settings : Settings) (domain : Domain) (members : List ZipMember) : Parsed Unit := do
  check (members ≠ [] ∧ members.length ≤ settings.maxPdfPackageDocuments + 1) "PDF package member limit exceeded."
  check (members.map (·.filename)).Nodup "PDF package contains duplicate members."
  check ((members.map (·.fileSize)).sum ≤ settings.maxPdfPackageExpandedBytes) "PDF package expanded size limit exceeded."
  members.forM safeMember
  check (manifestMemberName domain ∈ members.map (·.filename)) (missingManifest domain)

def parsePdfPackage (settings : Settings) (zipFile : Bytes → Except ZipFailure (List ZipMember)) (payload : Bytes) (domain : Domain) :
    Parsed (List PdfPackageEntry) := do
  check (payload.length ≤ settings.maxIngestUploadBytes) "PDF package exceeds the configured size limit."
  let members ← openArchive zipFile payload
  checkMembers settings domain members
  let manifest ← readMember members (manifestMemberName domain) (missingManifest domain)
  let rows ← readManifest settings domain manifest
  let staged ← packageRows settings domain members {} (rows.zipIdx 2)
  check (∀ member ∈ members, member.filename = manifestMemberName domain ∨ member.filename ∈ staged.declared)
    "PDF package contains undeclared members."
  return staged.entries

/-! ### Outcomes -/

section

variable {settings : Settings} {zipFile : Bytes → Except ZipFailure (List ZipMember)} {payload : Bytes} {domain : Domain}
  {members : List ZipMember} {row : Row} {number : ℕ} {action : Action} {staged : Staged}

/-- The cells of a row that are read as texts. -/
def readCells (domain : Domain) (row : Row) (action : Action) : List String :=
  ["external_identifier", "longitude", "latitude"] ++
    match domain, action with
    | .firePlans, .upsert => ["address", "object_name"]
    | .firePlans, .deactivate => ["address"]
    | .klgvPlans, .upsert => ["address", "object_name", "postal_code", "city"]
    | .klgvPlans, .deactivate => if stripped row "external_identifier" = .ok [] then ["object_name"] else []

/-- A row that is too short for its action. -/
def Short (domain : Domain) (row : Row) : Prop :=
  ∃ number action, rowAction row number = .ok action ∧ ∃ field ∈ readCells domain row action, row.get field = .null

/-- What the package parser leaves to its libraries and does not guard. -/
def PackageUnguarded (settings : Settings) (zipFile : Bytes → Except ZipFailure (List ZipMember)) (payload : Bytes) (domain : Domain) :
    Prop :=
  zipFile payload = .error .other ∨ ∃ members, zipFile payload = .ok members ∧
    ((∃ member ∈ members, member.content = none) ∨
      ∃ manifest ∈ members, manifest.filename = manifestMemberName domain ∧ ∃ bytes, manifest.content = some bytes ∧
        (CsvRefused (decodeSig bytes) ∨ ∃ rows, readManifest settings domain bytes = .ok rows ∧ ∃ row ∈ rows, Short domain row))

theorem declared_stripped {field : String} (h : ∃ s, row.get field = .str s) : Declared (stripped row field) := by
  obtain ⟨s, hs⟩ := h
  unfold stripped
  rw [hs]
  exact declared_ok _

theorem declared_requiredCell {field : String} (h : ∃ s, row.get field = .str s) : Declared (requiredCell row field number) :=
  (declared_stripped h).bind fun value _ => (declared_check _ _).bind fun _ _ => declared_pure value

theorem declared_optionalCoordinate {field : String} {lower upper : ℤ} (h : ∃ s, row.get field = .str s) :
    Declared (optionalCoordinate settings row field lower upper number) := by
  obtain ⟨s, hs⟩ := h
  unfold optionalCoordinate
  rw [hs]
  split
  · exact declared_ok none
  · split
    · split
      · exact declared_ok _
      · exact declared_invalid _
    · exact declared_invalid _
  · rename_i hother
    exact absurd rfl (hother s)

theorem declared_rowAction (row : Row) (number : ℕ) : Declared (rowAction row number) := by
  unfold rowAction
  split
  · exact declared_ok _
  · split_ifs
    · exact declared_ok _
    · exact declared_ok _
    · exact declared_invalid _
  · exact declared_invalid _

theorem declared_rowIdentity (h : ∀ field ∈ readCells domain row action, ∃ s, row.get field = .str s) :
    Declared (rowIdentity domain row action number) := by
  have hid : ∃ s, row.get "external_identifier" = .str s := h _ (by simp [readCells])
  unfold rowIdentity
  cases domain with
  | firePlans =>
    have haddress : ∃ s, row.get "address" = .str s := h _ (by cases action <;> simp [readCells])
    refine (declared_stripped hid).bind fun externalIdentifier _ => (declared_stripped haddress).bind fun address _ => ?_
    refine Declared.bind ?_ fun _ _ => declared_pure _
    unfold firePlanIdentity
    split_ifs
    · exact declared_ok _
    · exact declared_ok _
    · exact declared_invalid _
  | klgvPlans =>
    refine (declared_stripped hid).bind fun externalIdentifier hexternal => ?_
    refine Declared.bind ?_ fun address _ => Declared.bind ?_ fun _ _ => declared_pure _
    · cases action with
      | upsert => exact declared_requiredCell (h _ (by simp [readCells]))
      | deactivate => exact declared_ok []
    · unfold klgvIdentity
      split_ifs with hfilled
      · exact declared_ok _
      · refine (declared_stripped (h _ ?_)).map _
        rw [not_not] at hfilled
        rw [hfilled] at hexternal
        cases action with
        | upsert => simp [readCells]
        | deactivate => simp [readCells, hexternal]

theorem declared_readMember {name : Text} {missing : String} (h : ∀ member ∈ members, member.content ≠ none) :
    Declared (readMember members name missing) := by
  unfold readMember
  split
  · exact declared_invalid _
  · rename_i member hfind
    split
    · exact declared_ok _
    · rename_i hnone
      exact absurd hnone (h member (List.mem_of_find?_eq_some hfind))

theorem declared_rowPdf (declared : List Text) (h : ∀ member ∈ members, member.content ≠ none) :
    Declared (rowPdf settings members declared row action number) := by
  unfold rowPdf
  cases action with
  | deactivate => exact (declared_check _ _).bind fun _ _ => declared_pure _
  | upsert =>
    refine (declared_orInvalid _ _).bind fun _ _ => ?_
    refine (declared_check _ _).bind fun _ _ => ?_
    refine (declared_check _ _).bind fun _ _ => ?_
    refine (declared_readMember h).bind fun _ _ => ?_
    exact (declared_check _ _).bind fun _ _ => declared_pure _

theorem declared_rowTexts (h : ∀ field ∈ readCells domain row action, ∃ s, row.get field = .str s) :
    Declared (rowTexts domain row action number) := by
  unfold rowTexts
  cases domain with
  | firePlans =>
    cases action with
    | upsert => exact (declared_stripped (h _ (by simp [readCells]))).bind fun _ _ => declared_pure _
    | deactivate => exact declared_pure _
  | klgvPlans =>
    cases action with
    | upsert =>
      refine (declared_requiredCell (h _ (by simp [readCells]))).bind fun _ _ => ?_
      refine (declared_requiredCell (h _ (by simp [readCells]))).bind fun _ _ => ?_
      exact (declared_requiredCell (h _ (by simp [readCells]))).bind fun _ _ => declared_pure _
    | deactivate => exact declared_pure _

theorem declared_packageRow (hmembers : ∀ member ∈ members, member.content ≠ none) (hcells : ∀ e ∈ row.fields, IsCell e.2)
    (hshort : ¬Short domain row) : Declared (packageRow settings domain members staged row number) := by
  unfold packageRow
  refine (declared_rowAction row number).bind fun action haction => ?_
  have hread : ∀ field ∈ readCells domain row action, ∃ s, row.get field = .str s := by
    intro field hfield
    rcases isCell_get hcells field with hnull | hstr
    · exact absurd ⟨number, action, haction, field, hfield, hnull⟩ hshort
    · exact hstr
  refine (declared_rowIdentity hread).bind fun id _ => ?_
  refine (declared_check _ _).bind fun _ _ => ?_
  refine (declared_rowPdf _ hmembers).bind fun document _ => ?_
  refine (declared_optionalCoordinate (hread _ (by simp [readCells]))).bind fun _ _ => ?_
  refine (declared_optionalCoordinate (hread _ (by simp [readCells]))).bind fun _ _ => ?_
  exact (declared_rowTexts hread).bind fun _ _ => declared_pure _

theorem declared_packageRows (hmembers : ∀ member ∈ members, member.content ≠ none) {rows : List (Row × ℕ)}
    (hrows : ∀ e ∈ rows, (∀ f ∈ e.1.fields, IsCell f.2) ∧ ¬Short domain e.1) : Declared (packageRows settings domain members staged rows) := by
  induction rows generalizing staged with
  | nil => exact declared_pure _
  | cons e rows ih =>
    obtain ⟨row, number⟩ := e
    obtain ⟨⟨hcells, hshort⟩, hrows⟩ := List.forall_mem_cons.mp hrows
    unfold packageRows
    refine (declared_packageRow hmembers hcells hshort).bind fun first _ => ?_
    exact (ih hrows).bind fun _ _ => declared_pure _

theorem isCell_compactRow (h : ∀ e ∈ row.fields, IsCell e.2) : ∀ e ∈ (compactRow row).fields, IsCell e.2 := by
  unfold compactRow
  split
  · split
    · have hstr : ∀ s, IsCell (.str s) := fun s => .inr ⟨s, rfl⟩
      exact isCell_setField (isCell_setField (isCell_setField (isCell_setField h (hstr _)) (hstr _)) (hstr _)) (hstr _)
    · exact h
  · exact h

theorem isCell_readManifest {bytes : Bytes} {rows : List Row} (h : readManifest settings domain bytes = .ok rows) :
    ∀ row ∈ rows, ∀ e ∈ row.fields, IsCell e.2 := by
  unfold readManifest at h
  obtain ⟨t, -, h⟩ := bind_eq_ok.mp h
  obtain ⟨read, hread, h⟩ := bind_eq_ok.mp h
  obtain ⟨-, -, h⟩ := bind_eq_ok.mp h
  have hcells : ∀ row ∈ read, ∀ e ∈ row.fields, IsCell e.2 := by
    intro row hrow
    obtain ⟨header, cells, rfl⟩ := dictReader_rows hread row hrow
    exact isCell_dictRow header cells
  rw [← pure_eq_ok.mp h]
  split
  · intro row hrow
    obtain ⟨old, hold, rfl⟩ := List.mem_map.mp hrow
    exact isCell_compactRow (hcells old hold)
  · exact hcells

theorem declared_readManifest {bytes : Bytes} (h : ¬CsvRefused (decodeSig bytes)) : Declared (readManifest settings domain bytes) := by
  unfold readManifest
  refine (declared_orInvalid _ _).bind fun t hdecode => ?_
  rw [orInvalid_eq_ok] at hdecode
  rw [hdecode] at h
  refine (declared_dictReader h).bind fun rows _ => ?_
  exact (declared_check _ _).bind fun _ _ => declared_pure _

theorem declared_checkMembers (settings : Settings) (domain : Domain) (members : List ZipMember) :
    Declared (checkMembers settings domain members) := by
  have hsafe : ∀ members : List ZipMember, Declared (members.forM safeMember) := by
    intro members
    induction members with
    | nil => exact declared_pure ()
    | cons member members ih =>
      have hcons : (member :: members).forM safeMember = (safeMember member >>= fun _ => members.forM safeMember) := rfl
      rw [hcons]
      refine Declared.bind ?_ fun _ _ => ih
      exact (declared_check _ _).bind fun _ _ => declared_check _ _
  unfold checkMembers
  refine (declared_check _ _).bind fun _ _ => ?_
  refine (declared_check _ _).bind fun _ _ => ?_
  refine (declared_check _ _).bind fun _ _ => ?_
  exact (hsafe members).bind fun _ _ => declared_check _ _

theorem readMember_eq_ok {name : Text} {missing : String} {bytes : Bytes} (h : readMember members name missing = .ok bytes) :
    ∃ member ∈ members, member.filename = name ∧ member.content = some bytes := by
  unfold readMember at h
  split at h
  · cases h
  · rename_i member hfind
    split at h
    · rename_i content hcontent
      cases h
      have hname := List.find?_some hfind
      rw [decide_eq_true_eq] at hname
      exact ⟨member, List.mem_of_find?_eq_some hfind, hname, hcontent⟩
    · cases h

theorem declared_parsePdfPackage (h : ¬PackageUnguarded settings zipFile payload domain) :
    Declared (parsePdfPackage settings zipFile payload domain) := by
  unfold PackageUnguarded at h
  rw [not_or] at h
  obtain ⟨hopens, hguarded⟩ := h
  unfold parsePdfPackage
  refine (declared_check _ _).bind fun _ _ => ?_
  refine Declared.bind ?_ fun members hmembers => ?_
  · unfold openArchive
    split
    · exact declared_ok _
    · exact declared_invalid _
    · rename_i hother
      exact absurd hother hopens
  · have hopen : zipFile payload = .ok members := by
      unfold openArchive at hmembers
      split at hmembers
      · rename_i read hread
        cases hmembers
        exact hread
      · cases hmembers
      · cases hmembers
    have hreadable : ∀ member ∈ members, member.content ≠ none := fun member hmember hnone =>
      hguarded ⟨members, hopen, .inl ⟨member, hmember, hnone⟩⟩
    refine (declared_checkMembers _ _ _).bind fun _ _ => ?_
    refine (declared_readMember hreadable).bind fun manifest hmanifest => ?_
    obtain ⟨member, hmember, hname, hcontent⟩ := readMember_eq_ok hmanifest
    refine (declared_readManifest fun hcsv => ?_).bind fun rows hrows => ?_
    · exact hguarded ⟨members, hopen, .inr ⟨member, hmember, hname, manifest, hcontent, .inl hcsv⟩⟩
    · refine (declared_packageRows hreadable fun e he => ?_).bind fun _ _ => ?_
      · obtain ⟨row, number⟩ := e
        have hrow : row ∈ rows := List.fst_mem_of_mem_zipIdx he
        refine ⟨isCell_readManifest hrows row hrow, fun hshort => ?_⟩
        exact hguarded ⟨members, hopen, .inr ⟨member, hmember, hname, manifest, hcontent, .inr ⟨rows, hrows, row, hrow, hshort⟩⟩⟩
      · exact (declared_check _ _).bind fun _ _ => declared_pure _

/-! ### Accepted packages -/

/-- The identity of a numbered row of the manifest. -/
def manifestIdentity (domain : Domain) (e : Row × ℕ) : Parsed Identity := do
  let action ← rowAction e.1 e.2
  let id ← rowIdentity domain e.1 action e.2
  return id.identity

/-- The identity of the row of an entry. -/
def PdfPackageEntry.identity (domain : Domain) (entry : PdfPackageEntry) : Identity :=
  if entry.externalIdentifier ≠ [] then .externalIdentifier entry.externalIdentifier
  else
    match domain with
    | .firePlans => .address entry.address
    | .klgvPlans => .objectNameAddress (entry.title ++ 0 :: entry.address)

/-- An entry has its identity, unless it deactivates a KLGV plan by its name. -/
def PdfPackageEntry.KeepsIdentity (domain : Domain) (entry : PdfPackageEntry) : Prop :=
  domain = .firePlans ∨ entry.action = .upsert ∨ entry.externalIdentifier ≠ []

/-- The rows of the manifest have identities of their own, and these are those of the entries. -/
def Identified (settings : Settings) (members : List ZipMember) (domain : Domain) (entries : List PdfPackageEntry) : Prop :=
  ∃ manifest rows identities, readMember members (manifestMemberName domain) (missingManifest domain) = .ok manifest ∧
    readManifest settings domain manifest = .ok rows ∧
    List.Forall₂ (fun e identity => manifestIdentity domain e = .ok identity) (rows.zipIdx 2) identities ∧ identities.Nodup ∧
    List.Forall₂ (fun entry identity => entry.KeepsIdentity domain → entry.identity domain = identity) entries identities

/-- The name an entry takes its PDF from. -/
def PdfPackageEntry.declares (entry : PdfPackageEntry) : Option Text :=
  match entry.action with
  | .upsert => entry.filename
  | .deactivate => none

/-- The PDF of an entry is the content of the member it names; an entry without an action on a PDF has none. -/
def Filled (members : List ZipMember) (entry : PdfPackageEntry) : Prop :=
  match entry.action with
  | .upsert => ∃ name, entry.filename = some name ∧ pdfSuffix <:+ name ∧
      ∃ member ∈ members, member.filename = name ∧ ∃ bytes, member.content = some bytes ∧ entry.pdfBytes = some bytes
  | .deactivate => entry.pdfBytes = none ∧ (entry.filename = none ∨ entry.filename = some [])

theorem requiredCell_eq_ok {field : String} {value : Text} (h : requiredCell row field number = .ok value) :
    stripped row field = .ok value := by
  unfold requiredCell at h
  obtain ⟨v, hv, h⟩ := bind_eq_ok.mp h
  obtain ⟨-, -, h⟩ := bind_eq_ok.mp h
  rw [← pure_eq_ok.mp h]
  exact hv

/-- The identity of a row is read back from its entry. -/
theorem identity_of_row {id : RowIdentity} {texts : RowTexts} {entry : PdfPackageEntry} (hid : rowIdentity domain row action number = .ok id)
    (htexts : rowTexts domain row action number = .ok texts) (hexternal : entry.externalIdentifier = id.externalIdentifier)
    (haddress : entry.address = id.address) (htitle : entry.title = texts.title) (haction : entry.action = action)
    (hkeeps : entry.KeepsIdentity domain) : entry.identity domain = id.identity := by
  unfold PdfPackageEntry.KeepsIdentity at hkeeps
  unfold PdfPackageEntry.identity
  rw [hexternal] at hkeeps ⊢
  rw [haddress, htitle]
  rw [haction] at hkeeps
  unfold rowIdentity at hid
  cases domain with
  | firePlans =>
    obtain ⟨external, -, hid⟩ := bind_eq_ok.mp hid
    obtain ⟨address, -, hid⟩ := bind_eq_ok.mp hid
    obtain ⟨identity, hidentity, hid⟩ := bind_eq_ok.mp hid
    obtain rfl := pure_eq_ok.mp hid
    unfold firePlanIdentity at hidentity
    split_ifs at hidentity with hfilled haddress
    · cases hidentity
      exact if_pos hfilled
    · cases hidentity
      exact if_neg hfilled
    · cases hidentity
  | klgvPlans =>
    obtain ⟨external, -, hid⟩ := bind_eq_ok.mp hid
    obtain ⟨address, -, hid⟩ := bind_eq_ok.mp hid
    obtain ⟨identity, hidentity, hid⟩ := bind_eq_ok.mp hid
    obtain rfl := pure_eq_ok.mp hid
    unfold klgvIdentity at hidentity
    split_ifs at hidentity with hfilled
    · cases hidentity
      exact if_pos hfilled
    · rw [if_neg hfilled]
      rcases hkeeps with hfire | hupsert | hexternal
      · cases hfire
      · subst hupsert
        obtain ⟨title, hname, htexts⟩ := bind_eq_ok.mp htexts
        obtain ⟨postalCode, -, htexts⟩ := bind_eq_ok.mp htexts
        obtain ⟨city, -, htexts⟩ := bind_eq_ok.mp htexts
        obtain rfl := pure_eq_ok.mp htexts
        rw [requiredCell_eq_ok hname] at hidentity
        cases hidentity
        rfl
      · exact absurd hexternal hfilled

/-- What an accepted row adds to the rows before it. -/
theorem packageRow_eq_ok {first : StagedEntry} (h : packageRow settings domain members staged row number = .ok first) :
    (∃ identity ∉ staged.seen, manifestIdentity domain (row, number) = .ok identity ∧ first.staged.seen = identity :: staged.seen ∧
      (first.entry.KeepsIdentity domain → first.entry.identity domain = identity)) ∧
    Filled members first.entry ∧
    (∀ name, first.entry.declares = some name → name ∉ staged.declared) ∧
      first.staged.declared = first.entry.declares.toList ++ staged.declared := by
  unfold packageRow at h
  obtain ⟨action, haction, h⟩ := bind_eq_ok.mp h
  obtain ⟨id, hid, h⟩ := bind_eq_ok.mp h
  obtain ⟨u, hnew, h⟩ := bind_eq_ok.mp h
  obtain ⟨document, hdocument, h⟩ := bind_eq_ok.mp h
  obtain ⟨longitude, -, h⟩ := bind_eq_ok.mp h
  obtain ⟨latitude, -, h⟩ := bind_eq_ok.mp h
  obtain ⟨texts, htexts, h⟩ := bind_eq_ok.mp h
  rw [← pure_eq_ok.mp h]
  have hidentity : manifestIdentity domain (row, number) = .ok id.identity :=
    bind_eq_ok.mpr ⟨action, haction, bind_eq_ok.mpr ⟨id, hid, rfl⟩⟩
  refine ⟨⟨id.identity, check_eq_unit.mp hnew, hidentity, rfl, identity_of_row hid htexts rfl rfl rfl rfl⟩, ?_⟩
  unfold rowPdf at hdocument
  cases action with
  | deactivate =>
    obtain ⟨v, hfilename, hdocument⟩ := bind_eq_ok.mp hdocument
    obtain rfl := pure_eq_ok.mp hdocument
    exact ⟨⟨rfl, check_eq_unit.mp hfilename⟩, nofun, rfl⟩
  | upsert =>
    obtain ⟨name, hname, hdocument⟩ := bind_eq_ok.mp hdocument
    obtain ⟨v, hvalid, hdocument⟩ := bind_eq_ok.mp hdocument
    obtain ⟨w, hfresh, hdocument⟩ := bind_eq_ok.mp hdocument
    obtain ⟨pdf, hpdf, hdocument⟩ := bind_eq_ok.mp hdocument
    obtain ⟨x, -, hdocument⟩ := bind_eq_ok.mp hdocument
    obtain rfl := pure_eq_ok.mp hdocument
    obtain ⟨member, hmember, hmname, hcontent⟩ := readMember_eq_ok hpdf
    refine ⟨⟨name, rfl, (check_eq_unit.mp hvalid).2.2, member, hmember, hmname, pdf, hcontent, rfl⟩, fun other hother => ?_, rfl⟩
    rw [← Option.some.inj hother]
    exact check_eq_unit.mp hfresh

/-- What the accepted rows add. -/
theorem packageRows_eq_ok {rows : List (Row × ℕ)} {all : StagedEntries} (h : packageRows settings domain members staged rows = .ok all) :
    (∃ identities, List.Forall₂ (fun e identity => manifestIdentity domain e = .ok identity) rows identities ∧ identities.Nodup ∧
      (∀ identity ∈ identities, identity ∉ staged.seen) ∧
      List.Forall₂ (fun entry identity => entry.KeepsIdentity domain → entry.identity domain = identity) all.entries identities) ∧
    (∀ entry ∈ all.entries, Filled members entry) ∧
    ((all.entries.filterMap (·.declares)).Nodup ∧ ∀ name ∈ all.entries.filterMap (·.declares), name ∉ staged.declared) ∧
    ∀ name, name ∈ all.declared ↔ name ∈ all.entries.filterMap (·.declares) ∨ name ∈ staged.declared := by
  induction rows generalizing staged all with
  | nil =>
    obtain rfl := pure_eq_ok.mp h
    refine ⟨⟨[], .nil, .nil, ?_, .nil⟩, ?_⟩
    · simp
    · simp
  | cons e rows ih =>
    obtain ⟨row, number⟩ := e
    unfold packageRows at h
    obtain ⟨first, hfirst, h⟩ := bind_eq_ok.mp h
    obtain ⟨rest, hrest, h⟩ := bind_eq_ok.mp h
    obtain rfl := pure_eq_ok.mp h
    obtain ⟨⟨identity, hnew, hrow, hseen, hidentity⟩, hfilled, hfresh, hdeclared⟩ := packageRow_eq_ok hfirst
    obtain ⟨⟨identities, hrows, hnodup, hunseen, hkept⟩, hrestFilled, ⟨hnames, hundeclared⟩, hall⟩ := ih hrest
    rw [hseen] at hunseen
    rw [hdeclared] at hundeclared hall
    refine ⟨⟨identity :: identities, .cons hrow hrows, ?_, ?_, .cons hidentity hkept⟩, ?_, ⟨?_, ?_⟩, ?_⟩
    · exact List.nodup_cons.mpr ⟨fun hmem => hunseen identity hmem List.mem_cons_self, hnodup⟩
    · refine List.forall_mem_cons.mpr ⟨hnew, fun other hother hmem => ?_⟩
      exact hunseen other hother (List.mem_cons_of_mem _ hmem)
    · exact List.forall_mem_cons.mpr ⟨hfilled, hrestFilled⟩
    · dsimp only
      cases hdeclares : first.entry.declares with
      | none =>
        rw [List.filterMap_cons_none hdeclares]
        exact hnames
      | some name =>
        rw [List.filterMap_cons_some hdeclares, List.nodup_cons]
        refine ⟨fun hmem => hundeclared name hmem ?_, hnames⟩
        rw [hdeclares]
        exact List.mem_cons_self
    · intro name hname
      obtain ⟨entry, hentry, hdeclares⟩ := List.mem_filterMap.mp hname
      rcases List.mem_cons.mp hentry with rfl | hentry
      · exact hfresh name hdeclares
      · exact fun hmem => hundeclared name (List.mem_filterMap.mpr ⟨entry, hentry, hdeclares⟩) (List.mem_append_right _ hmem)
    · intro name
      rw [hall, List.mem_append, Option.mem_toList, ← or_assoc]
      refine or_congr_left ?_
      simp only [List.mem_filterMap, List.mem_cons, exists_eq_or_imp]
      exact or_comm

/-- The rows of an accepted package that carry a PDF, and its members beside the manifest, are matched one to one. -/
structure OneToOne (members : List ZipMember) (domain : Domain) (entries : List PdfPackageEntry) : Prop where
  members_nodup : (members.map (·.filename)).Nodup
  names : (entries.filterMap (·.declares)).Perm ((members.map (·.filename)).filter (· ≠ manifestMemberName domain))
  filled : ∀ entry ∈ entries, Filled members entry

theorem accepted_package {entries : List PdfPackageEntry} (h : parsePdfPackage settings zipFile payload domain = .ok entries) :
    ∃ members, zipFile payload = .ok members ∧ Identified settings members domain entries ∧ OneToOne members domain entries := by
  unfold parsePdfPackage at h
  obtain ⟨-, -, h⟩ := bind_eq_ok.mp h
  obtain ⟨members, hopen, h⟩ := bind_eq_ok.mp h
  obtain ⟨u, hchecked, h⟩ := bind_eq_ok.mp h
  obtain ⟨manifest, hmanifest, h⟩ := bind_eq_ok.mp h
  obtain ⟨rows, hrows, h⟩ := bind_eq_ok.mp h
  obtain ⟨staged, hstaged, h⟩ := bind_eq_ok.mp h
  obtain ⟨v, hundeclared, h⟩ := bind_eq_ok.mp h
  obtain rfl := pure_eq_ok.mp h
  obtain ⟨⟨identities, hidentities, hnodup, -, hkept⟩, hfilled, ⟨hnames, -⟩, hdeclared⟩ := packageRows_eq_ok hstaged
  have hall := check_eq_unit.mp hundeclared
  have hmembers : (members.map (·.filename)).Nodup := by
    unfold checkMembers at hchecked
    obtain ⟨-, -, hchecked⟩ := bind_eq_ok.mp hchecked
    obtain ⟨w, hunique, -⟩ := bind_eq_ok.mp hchecked
    exact check_eq_unit.mp hunique
  have hzip : zipFile payload = .ok members := by
    unfold openArchive at hopen
    split at hopen
    · rename_i read hread
      cases hopen
      exact hread
    · cases hopen
    · cases hopen
  refine ⟨members, hzip, ⟨manifest, rows, identities, hmanifest, hrows, hidentities, hnodup, hkept⟩, hmembers, ?_, hfilled⟩
  refine (List.perm_ext_iff_of_nodup hnames (hmembers.filter _)).mpr fun name => ?_
  rw [List.mem_filter, decide_eq_true_eq]
  constructor
  · intro hname
    obtain ⟨entry, hentry, hdeclares⟩ := List.mem_filterMap.mp hname
    have hfill := hfilled entry hentry
    unfold PdfPackageEntry.declares at hdeclares
    unfold Filled at hfill
    cases haction : entry.action with
    | deactivate =>
      rw [haction] at hdeclares
      cases hdeclares
    | upsert =>
      rw [haction] at hdeclares hfill
      obtain ⟨other, hother, hsuffix, member, hmember, hmname, -⟩ := hfill
      obtain rfl : other = name := Option.some.inj (hother.symm.trans hdeclares)
      refine ⟨List.mem_map.mpr ⟨member, hmember, hmname⟩, ?_⟩
      -- A PDF is not named like the manifest.
      rintro rfl
      revert hsuffix
      cases domain <;> decide
  · rintro ⟨hname, hne⟩
    obtain ⟨member, hmember, rfl⟩ := List.mem_map.mp hname
    rcases hall member hmember with hmanifest | hmem
    · exact absurd hmanifest hne
    · exact ((hdeclared _).mp hmem).resolve_right List.not_mem_nil

end

end FireDash.Ingestion.PdfPackages
