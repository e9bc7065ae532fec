import FireDash.Ingestion.PdfPackages

/-! How the parsers of imports fail, and what an accepted import is. -/
namespace FireDash.Ingestion.Imports

open Json (Text text)
open Parsers
open PdfPackages

/-- Beyond what the libraries refuse and the cells that are not guarded, every parser returns or raises its own error. An
accepted import has distinct hydrants, personnel and stations, and a package one row with its own identity for each PDF. -/
theorem imports_declared (settings : Settings) (zipFile : Bytes → Except ZipFailure (List ZipMember)) (payload : Bytes) :
    ((∀ importFormat, ¬HydrantsUnguarded settings payload importFormat → Declared (parseHydrants settings payload importFormat)) ∧
      (∀ importFormat, ¬CsvRefused (decodeSig payload) → Declared (parsePersonnel settings payload importFormat)) ∧
      (∀ importFormat, ¬Refused settings payload importFormat → Declared (parseStationVehicles settings payload importFormat)) ∧
      (∀ importFormat, ¬CsvRefused (decodeSig payload) → Declared (parsePhonebook settings payload importFormat)) ∧
      (∀ domain, ¬PackageUnguarded settings zipFile payload domain → Declared (parsePdfPackage settings zipFile payload domain)) ∧
      ∀ t : Text, (∀ c ∈ t, c ≠ 13) → t.length ≤ Csv.fieldLimit → ¬CsvRefused (some t)) ∧
    (∀ importFormat rows, parseHydrants settings payload importFormat = .ok rows → (rows.map (·.externalIdentifier)).Nodup) ∧
    (∀ importFormat rows, parsePersonnel settings payload importFormat = .ok rows → (rows.map (·.personnelNumber)).Nodup) ∧
    (∀ importFormat rows, parseStationVehicles settings payload importFormat = .ok rows →
      ((stations rows).map fun row => stationReferenceKey settings row.stationShortCode).Nodup ∧
        ((stations rows).map fun row => stationReferenceKey settings row.stationName).Nodup) ∧
    ∀ domain entries, parsePdfPackage settings zipFile payload domain = .ok entries →
      ∃ members, zipFile payload = .ok members ∧ Identified settings members domain entries ∧ OneToOne members domain entries := by
  refine ⟨⟨?_, ?_, ?_, ?_, ?_, ?_⟩, ?_, ?_, ?_, ?_⟩
  · exact fun importFormat h => declared_parseHydrants h
  · exact fun importFormat h => declared_parsePersonnel h
  · exact fun importFormat h => declared_parseStationVehicles h
  · exact fun importFormat h => declared_parsePhonebook h
  · exact fun domain h => declared_parsePdfPackage h
  · exact fun t hreturn hlength => not_csvRefused hreturn hlength
  · exact fun importFormat rows h => unique_hydrants h
  · exact fun importFormat rows h => unique_personnel h
  · exact fun importFormat rows h => unique_stations h
  · exact fun domain entries h => accepted_package h

/-! ### A repeated entry, and a diameter that is an array -/

def sampleSettings : Settings where
  maxStructuredImportBytes := 20971520
  maxStructuredImportRows := 20000
  maxHydrantGeojsonFeatures := 50000
  maxIngestUploadBytes := 268435456
  maxPdfPackageDocuments := 250
  maxPdfPackageExpandedBytes := 536870912
  maxPdfInputBytes := 104857600
  jsonLimits := ⟨900, 4300⟩
  decimal := fun _ => none
  casefold := fun t => t.map Floats.lowerAscii

def ascii (s : String) : Bytes := (text s).map UInt8.ofNat

/-- One entry, twice. -/
def repeatedPhonebook : Bytes :=
  ascii "first_name,last_name,organization_unit,function,phone_number,scope\nAda,Lovelace,Ops,Chief,112,all\nAda,Lovelace,Ops,Chief,112,all\n"

def sampleEntry : PhonebookRow where
  firstName := text "Ada"
  lastName := text "Lovelace"
  organizationUnit := text "Ops"
  function := text "Chief"
  phoneNumber := text "112"
  scope := text "all"

/-- A feature whose diameter is an array. -/
def arrayDiameter : Bytes :=
  ascii "\x7b\"type\":\"FeatureCollection\",\"features\":[\x7b\"type\":\"Feature\",\"geometry\":\x7b\"type\":\"Point\",\"coordinates\":[10,53]\x7d,\"properties\":\x7b\"external_identifier\":\"H1\",\"street\":\"\",\"house_number\":\"\",\"location\":null,\"hydrant_type\":\"\",\"diameter_mm\":[],\"status\":\"\"\x7d\x7d]\x7d"

/-- The phonebook has no identity that an import checks, and a set has no place for an array. -/
theorem repeated_entry_accepted :
    parsePhonebook sampleSettings repeatedPhonebook .csv = .ok [sampleEntry, sampleEntry] ∧
    parseHydrants sampleSettings arrayDiameter .geojson = .error .typeError := by
  constructor
  · decide +kernel
  · decide +kernel

end FireDash.Ingestion.Imports
