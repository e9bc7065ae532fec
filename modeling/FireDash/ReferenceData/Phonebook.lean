import FireDash.Lib.Machine
import FireDash.Lib.Numerals

/-! The phonebook of a department: fingerprints of entries, pairs that look like duplicates, and the
decisions of their review. -/
namespace FireDash.ReferenceData

open Json (Text)
open Numerals (Uuid)

inductive Error where
  | permissionDenied
  | valueError (message : String)
  | validationError
  | doesNotExist
  deriving DecidableEq

/-- Unicode as the interpreter knows it, and the digest of texts. `fold` is the NFKC form with its case folded. -/
structure Settings where
  fold : Text → Text
  decimal : ℕ → Option ℕ
  sha256 : Text → Text

/-! ### Entries -/

structure EntryFields where
  department : Uuid
  station : Option Uuid
  firstName : Text
  lastName : Text
  organizationUnit : Text
  function : Text
  phoneNumber : Text
  deriving DecidableEq

structure PhonebookEntry extends EntryFields where
  id : Uuid
  deriving DecidableEq

/-- The unit separator. -/
def separator : ℕ := 31

def EntryFields.values (e : EntryFields) : List Text :=
  [e.department.str, (e.station.map Uuid.str).getD [], e.firstName, e.lastName, e.organizationUnit, e.function,
    e.phoneNumber]

def entryFingerprint (settings : Settings) (e : EntryFields) : Text :=
  settings.sha256 ([separator].intercalate e.values)

/-! ### Comparison -/

def comparisonValue (settings : Settings) (value : Text) : Text := Json.strip (settings.fold value)

/-- What `re.sub(r"\D", "", value)` leaves. -/
def digits (settings : Settings) (value : Text) : Text :=
  value.filter fun c => Json.isDigit c || (settings.decimal c).isSome

inductive Signal where
  | name
  | organizationUnit
  | function
  | phoneNumber
  | scope
  deriving DecidableEq

/-- The signals in the order of the dictionary. -/
def Signal.all : List Signal := [.name, .organizationUnit, .function, .phoneNumber, .scope]

def signals (settings : Settings) (e : EntryFields) : Signal → Text
  | .name =>
    [32].intercalate ([comparisonValue settings e.firstName, comparisonValue settings e.lastName].filter (· ≠ []))
  | .organizationUnit => comparisonValue settings e.organizationUnit
  | .function => comparisonValue settings e.function
  | .phoneNumber => digits settings e.phoneNumber
  | .scope => (e.station.map Uuid.str).getD (Json.text "department")

def reasons (settings : Settings) (first second : EntryFields) : List Signal :=
  Signal.all.filter fun label => signals settings first label ≠ [] ∧ signals settings first label = signals settings second label

def conflicts (settings : Settings) (first second : EntryFields) : List Signal :=
  Signal.all.filter fun label => signals settings first label ≠ [] ∧ signals settings second label ≠ [] ∧
    signals settings first label ≠ signals settings second label

structure DuplicateCandidate where
  first : PhonebookEntry
  second : PhonebookEntry
  reasons : List Signal
  conflicts : List Signal
  firstFingerprint : Text
  secondFingerprint : Text
  exact : Bool
  deriving DecidableEq

/-- Two signals beside the scope agree. -/
def comparePhonebookEntries (settings : Settings) (first second : PhonebookEntry) : Option DuplicateCandidate :=
  let reasons := reasons settings first.toEntryFields second.toEntryFields
  if (reasons.filter (· ≠ .scope)).length < 2 then none
  else
    let conflicts := conflicts settings first.toEntryFields second.toEntryFields
    some {
      first, second, reasons, conflicts
      firstFingerprint := entryFingerprint settings first.toEntryFields
      secondFingerprint := entryFingerprint settings second.toEntryFields
      exact := conflicts = [] }

/-! ### The tables -/

structure PhonebookDuplicateDecision where
  department : Uuid
  firstEntry : Uuid
  secondEntry : Uuid
  firstFingerprint : Text
  secondFingerprint : Text
  deriving DecidableEq

/-- The entries in the order of their keys, and the decisions. -/
structure Phonebook where
  entries : List PhonebookEntry
  ordered : entries.Pairwise fun a b => a.id < b.id
  decisions : List PhonebookDuplicateDecision

/-- `combinations(entries, 2)` -/
def combinations {α : Type} : List α → List (α × α)
  | [] => []
  | a :: rest => rest.map (a, ·) ++ combinations rest

namespace Phonebook

def decided (s : Phonebook) (department : Uuid) (c : DuplicateCandidate) : Bool :=
  s.decisions.any fun d => d.department = department ∧ d.firstEntry = c.first.id ∧ d.secondEntry = c.second.id ∧
    d.firstFingerprint = c.firstFingerprint ∧ d.secondFingerprint = c.secondFingerprint

/-- The candidates as they are found. -/
def scan (settings : Settings) (s : Phonebook) (department : Uuid) : List DuplicateCandidate :=
  ((combinations (s.entries.filter (·.department = department))).filterMap
    fun (first, second) => comparePhonebookEntries settings first second).filter fun c => !s.decided department c

end Phonebook

/-- The sort key of a candidate; identifiers have texts of one length. -/
def DuplicateCandidate.key (c : DuplicateCandidate) : List ℕ :=
  [if c.exact then 0 else 1, Signal.all.length - c.reasons.length, c.conflicts.length] ++ c.first.id.str ++ c.second.id.str

namespace Phonebook

def findDuplicateCandidates (settings : Settings) (s : Phonebook) (department : Uuid) : List DuplicateCandidate :=
  (s.scan settings department).mergeSort fun a b => a.key ≤ b.key

/-! ### Resolution -/

/-- A deletion takes the decisions on the entry with it. -/
def delete (s : Phonebook) (id : Uuid) : Phonebook where
  entries := s.entries.filter (·.id ≠ id)
  ordered := s.ordered.filter _
  decisions := s.decisions.filter fun d => d.firstEntry ≠ id ∧ d.secondEntry ≠ id

def deletePhonebookEntry (s : Phonebook) (admin : Uuid → Bool) (id : Uuid) : Except Error Phonebook :=
  match s.entries.find? (·.id = id) with
  | none => throw .doesNotExist
  | some entry => if admin entry.department then return s.delete id else throw .permissionDenied

/-- `update_or_create` under the key of the two entries. -/
def decide (s : Phonebook) (d : PhonebookDuplicateDecision) : Phonebook :=
  let same (row : PhonebookDuplicateDecision) : Bool := row.firstEntry = d.firstEntry ∧ row.secondEntry = d.secondEntry
  { s with decisions := if s.decisions.any same then s.decisions.map fun row => if same row then d else row
                        else s.decisions ++ [d] }

def resolvePhonebookDuplicate (settings : Settings) (s : Phonebook) (admin : Uuid → Bool) (department : Uuid)
    (firstId secondId firstFingerprint secondFingerprint : Text) (action : String) : Except Error Phonebook := do
  if ¬admin department then
    throw .permissionDenied
  if Uuid.read settings.decimal firstId = none ∨ Uuid.read settings.decimal secondId = none then
    throw .validationError
  let entry (id : Text) : Option PhonebookEntry := s.entries.find? fun e => e.department = department ∧ e.id.str = id
  match entry firstId, entry secondId with
  | some first, some second =>
    if first.id = second.id then
      throw (.valueError "This review pair is no longer available.")
    else if entryFingerprint settings first.toEntryFields ≠ firstFingerprint ∨
        entryFingerprint settings second.toEntryFields ≠ secondFingerprint then
      throw (.valueError "This review pair changed; refresh duplicate review before resolving it.")
    else if action = "keep_both" then
      return s.decide ⟨department, first.id, second.id, firstFingerprint, secondFingerprint⟩
    else if action = "keep_first" then s.deletePhonebookEntry admin second.id
    else if action = "keep_second" then s.deletePhonebookEntry admin first.id
    else throw (.valueError "Unknown duplicate-review action.")
  | _, _ => throw (.valueError "This review pair is no longer available.")

end Phonebook

/-! ### Fingerprints -/

section

variable {settings : Settings} {a b : EntryFields}

/-- No free text of the entry holds the separator. -/
def Separable (e : EntryFields) : Prop := ∀ t ∈ [e.firstName, e.lastName, e.organizationUnit, e.function, e.phoneNumber], separator ∉ t

theorem separator_not_mem_str (u : Uuid) : separator ∉ u.str := by
  intro h
  rcases Numerals.mem_str h with hdash | ⟨d, hd, hdigit⟩
  · exact absurd hdash (by decide)
  · have hnone : ∀ d < 16, separator ≠ Json.hexChar d := by decide
    exact hnone d hd hdigit

theorem separator_not_mem_station (station : Option Uuid) : separator ∉ (station.map Uuid.str).getD [] := by
  cases station with
  | none => exact List.not_mem_nil
  | some u => exact separator_not_mem_str u

theorem station_text_injective {u v : Option Uuid} (h : (u.map Uuid.str).getD [] = (v.map Uuid.str).getD []) : u = v := by
  have hne : ∀ w : Uuid, w.str ≠ [] := by
    intro w hw
    have hlength := congrArg List.length hw
    simp [Uuid.str] at hlength
  cases u with
  | none =>
    cases v with
    | none => rfl
    | some v => exact absurd h.symm (hne v)
  | some u =>
    cases v with
    | none => exact absurd h (hne u)
    | some v => rw [Numerals.str_injective h]

/-- The values of an entry determine its fields. -/
theorem values_injective (h : a.values = b.values) : a = b := by
  cases a
  cases b
  simp only [EntryFields.values, List.cons.injEq, and_true] at h
  obtain ⟨hdepartment, hstation, rfl, rfl, rfl, rfl, rfl⟩ := h
  obtain rfl := Numerals.str_injective hdepartment
  obtain rfl := station_text_injective hstation
  rfl

theorem count_joined {x : ℕ} (t u : Text) (rest : List Text) :
    ([x].intercalate (t :: u :: rest)).count x = t.count x + (1 + ([x].intercalate (u :: rest)).count x) := by
  have hjoin : [x].intercalate (t :: u :: rest) = t ++ ([x] ++ [x].intercalate (u :: rest)) := rfl
  rw [hjoin, List.count_append, List.count_append, List.count_singleton_self]

theorem count_seven {x : ℕ} (a b c d e f g : Text) : ([x].intercalate [a, b, c, d, e, f, g]).count x =
    6 + (a.count x + b.count x + c.count x + d.count x + e.count x + f.count x + g.count x) := by
  rw [count_joined, count_joined, count_joined, count_joined, count_joined, count_joined, List.intercalate_singleton]
  omega

/-- As many separators stand in the joined text as between the values and in them. -/
theorem count_intercalate (e : EntryFields) : ([separator].intercalate e.values).count separator =
    6 + (e.firstName.count separator + e.lastName.count separator + e.organizationUnit.count separator +
      e.function.count separator + e.phoneNumber.count separator) := by
  have hdepartment : e.department.str.count separator = 0 := List.count_eq_zero_of_not_mem (separator_not_mem_str e.department)
  have hstation : ((e.station.map Uuid.str).getD []).count separator = 0 :=
    List.count_eq_zero_of_not_mem (separator_not_mem_station e.station)
  rw [EntryFields.values, count_seven, hdepartment, hstation, Nat.zero_add]

theorem separable_iff {e : EntryFields} : Separable e ↔ ([separator].intercalate e.values).count separator = 6 := by
  rw [count_intercalate]
  simp only [Separable, List.forall_mem_cons, List.not_mem_nil, false_implies, implies_true, and_true, ← List.count_eq_zero]
  generalize e.firstName.count separator = first, e.lastName.count separator = last,
    e.organizationUnit.count separator = unit, e.function.count separator = function,
    e.phoneNumber.count separator = phone
  omega

theorem separator_not_mem_values (h : Separable a) : ∀ t ∈ a.values, separator ∉ t := by
  intro t ht
  rcases List.mem_cons.mp ht with heq | ht
  · rw [heq]
    exact separator_not_mem_str a.department
  · rcases List.mem_cons.mp ht with heq | ht
    · rw [heq]
      exact separator_not_mem_station a.station
    · exact h t ht

/-- The joined text of entries without separators is split back into their values. -/
theorem joined_injective (ha : Separable a) (hb : Separable b)
    (h : [separator].intercalate a.values = [separator].intercalate b.values) : a = b := by
  have hsplit : ∀ e : EntryFields, Separable e → ([separator].intercalate e.values).splitOn separator = e.values :=
    fun e he => List.splitOn_intercalate separator (separator_not_mem_values he) (List.cons_ne_nil _ _)
  apply values_injective
  rw [← hsplit a ha, h, hsplit b hb]

/-- An entry with a separator in a free text shares its joined text with another one. -/
theorem exists_joined_eq (h : ¬Separable a) : ∃ b, b ≠ a ∧ [separator].intercalate b.values = [separator].intercalate a.values := by
  obtain ⟨department, station, firstName, lastName, unit, function, phone⟩ := a
  have hlonger : ∀ {t u : Text}, t ≠ t ++ separator :: u := by
    intro t u heq
    have hlength := congrArg List.length heq
    rw [List.length_append, List.length_cons] at hlength
    omega
  simp only [Separable, not_forall, not_not] at h
  obtain ⟨text, htext, hseparator⟩ := h
  obtain ⟨t, u, hsplit⟩ := List.append_of_mem hseparator
  simp only [List.mem_cons, List.not_mem_nil, or_false] at htext
  rcases htext with htext | htext | htext | htext | htext
  · obtain rfl : firstName = t ++ separator :: u := htext.symm.trans hsplit
    refine ⟨⟨department, station, t, u ++ separator :: lastName, unit, function, phone⟩, ?_, ?_⟩
    · intro heq
      exact hlonger (EntryFields.mk.inj heq).2.2.1
    · simp only [EntryFields.values, List.intercalate_cons_cons, List.append_assoc, List.cons_append, List.nil_append]
  · obtain rfl : lastName = t ++ separator :: u := htext.symm.trans hsplit
    refine ⟨⟨department, station, firstName, t, u ++ separator :: unit, function, phone⟩, ?_, ?_⟩
    · intro heq
      exact hlonger (EntryFields.mk.inj heq).2.2.2.1
    · simp only [EntryFields.values, List.intercalate_cons_cons, List.append_assoc, List.cons_append, List.nil_append]
  · obtain rfl : unit = t ++ separator :: u := htext.symm.trans hsplit
    refine ⟨⟨department, station, firstName, lastName, t, u ++ separator :: function, phone⟩, ?_, ?_⟩
    · intro heq
      exact hlonger (EntryFields.mk.inj heq).2.2.2.2.1
    · simp only [EntryFields.values, List.intercalate_cons_cons, List.append_assoc, List.cons_append, List.nil_append]
  · obtain rfl : function = t ++ separator :: u := htext.symm.trans hsplit
    refine ⟨⟨department, station, firstName, lastName, unit, t, u ++ separator :: phone⟩, ?_, ?_⟩
    · intro heq
      exact hlonger (EntryFields.mk.inj heq).2.2.2.2.2.1
    · simp only [EntryFields.values, List.intercalate_cons_cons, List.intercalate_singleton, List.append_assoc, List.cons_append,
        List.nil_append]
  · obtain rfl : phone = t ++ separator :: u := htext.symm.trans hsplit
    refine ⟨⟨department, station, firstName, lastName, unit, function ++ separator :: t, u⟩, ?_, ?_⟩
    · intro heq
      exact hlonger (EntryFields.mk.inj heq).2.2.2.2.2.1.symm
    · simp only [EntryFields.values, List.intercalate_cons_cons, List.intercalate_singleton, List.append_assoc, List.cons_append,
        List.nil_append]

/-- A fingerprint is that of one entry exactly when no free text of the entry holds the separator. -/
theorem fingerprint_unique_iff (hsha : Function.Injective settings.sha256) :
    (∀ b, entryFingerprint settings b = entryFingerprint settings a → b = a) ↔ Separable a := by
  constructor
  · intro hunique
    by_contra hnot
    obtain ⟨b, hne, hjoined⟩ := exists_joined_eq hnot
    exact hne (hunique b (congrArg settings.sha256 hjoined))
  · intro ha b hb
    have hjoined := hsha hb
    have hcount : Separable b := by
      rw [separable_iff, hjoined]
      exact separable_iff.mp ha
    exact joined_injective hcount ha hjoined

end

/-! ### Candidates -/

/-- The candidate with its entries exchanged. -/
def DuplicateCandidate.swap (c : DuplicateCandidate) : DuplicateCandidate :=
  { c with
    first := c.second
    second := c.first
    firstFingerprint := c.secondFingerprint
    secondFingerprint := c.firstFingerprint }

section

variable {settings : Settings} {s t : Phonebook} {department : Uuid} {c : DuplicateCandidate} {a b : PhonebookEntry}

theorem reasons_comm (a b : EntryFields) : reasons settings a b = reasons settings b a := by
  refine List.filter_congr fun label _ => ?_
  rw [decide_eq_decide]
  constructor
  · rintro ⟨hne, heq⟩
    exact ⟨heq ▸ hne, heq.symm⟩
  · rintro ⟨hne, heq⟩
    exact ⟨heq ▸ hne, heq.symm⟩

theorem conflicts_comm (a b : EntryFields) : conflicts settings a b = conflicts settings b a := by
  refine List.filter_congr fun label _ => ?_
  rw [decide_eq_decide]
  constructor
  · rintro ⟨hfirst, hsecond, hne⟩
    exact ⟨hsecond, hfirst, hne.symm⟩
  · rintro ⟨hfirst, hsecond, hne⟩
    exact ⟨hsecond, hfirst, hne.symm⟩

theorem comparePhonebookEntries_comm (a b : PhonebookEntry) :
    comparePhonebookEntries settings b a = (comparePhonebookEntries settings a b).map DuplicateCandidate.swap := by
  unfold comparePhonebookEntries
  dsimp only
  rw [reasons_comm b.toEntryFields, conflicts_comm b.toEntryFields]
  split
  · rfl
  · rfl

theorem comparePhonebookEntries_eq_some (h : comparePhonebookEntries settings a b = some c) : c.first = a ∧ c.second = b ∧
    c.firstFingerprint = entryFingerprint settings a.toEntryFields ∧
    c.secondFingerprint = entryFingerprint settings b.toEntryFields := by
  unfold comparePhonebookEntries at h
  dsimp only at h
  split at h
  · cases h
  · cases h
    exact ⟨rfl, rfl, rfl, rfl⟩

/-- The pairs of a list in order are its ordered pairs. -/
theorem mem_combinations {α : Type} {R : α → α → Prop} {l : List α} (h : l.Pairwise R) (hR : ∀ a b, R a b → ¬R b a)
    {p : α × α} : p ∈ combinations l ↔ p.1 ∈ l ∧ p.2 ∈ l ∧ R p.1 p.2 := by
  induction l with
  | nil => simp [combinations]
  | cons x rest ih =>
    obtain ⟨hx, hrest⟩ := List.pairwise_cons.mp h
    have hirrefl : ∀ a, ¬R a a := fun a haa => hR a a haa haa
    simp only [combinations, List.mem_append, List.mem_map, List.mem_cons, ih hrest]
    constructor
    · rintro (⟨b, hb, rfl⟩ | ⟨hfirst, hsecond, hp⟩)
      · exact ⟨.inl rfl, .inr hb, hx b hb⟩
      · exact ⟨.inr hfirst, .inr hsecond, hp⟩
    · rintro ⟨hfirst | hfirst, hsecond | hsecond, hp⟩
      · rw [hfirst, hsecond] at hp
        exact absurd hp (hirrefl x)
      · exact .inl ⟨p.2, hsecond, by rw [← hfirst]⟩
      · rw [hsecond] at hp
        exact absurd hp (hR x p.1 (hx p.1 hfirst))
      · exact .inr ⟨hfirst, hsecond, hp⟩

theorem combinations_filter {α : Type} (p : α → Bool) (l : List α) :
    combinations (l.filter p) = (combinations l).filter fun q => p q.1 && p q.2 := by
  induction l with
  | nil => rfl
  | cons x rest ih =>
    rw [List.filter_cons]
    by_cases hx : p x = true
    · rw [if_pos hx, combinations, combinations, ih, List.filter_append, List.filter_map]
      congr 2
      exact List.filter_congr fun y _ => by simp [hx]
    · rw [if_neg hx, combinations, ih, List.filter_append, List.filter_map]
      have hnone : rest.filter ((fun q : α × α => p q.1 && p q.2) ∘ fun y => (x, y)) = [] := by
        refine List.filter_eq_nil_iff.mpr fun y _ => ?_
        simp [hx]
      rw [hnone]
      rfl

/-- The candidates before any decision is looked at. -/
def Phonebook.compared (settings : Settings) (s : Phonebook) (department : Uuid) : List DuplicateCandidate :=
  (combinations (s.entries.filter (·.department = department))).filterMap
    fun (first, second) => comparePhonebookEntries settings first second

theorem scan_eq : s.scan settings department = (s.compared settings department).filter fun c => !s.decided department c := rfl

theorem mem_compared : c ∈ s.compared settings department ↔ ∃ a ∈ s.entries, ∃ b ∈ s.entries, a.department = department ∧
    b.department = department ∧ a.id < b.id ∧ comparePhonebookEntries settings a b = some c := by
  have hordered : (s.entries.filter (·.department = department)).Pairwise fun a b => a.id < b.id := s.ordered.filter _
  have hasymm : ∀ a b : PhonebookEntry, a.id < b.id → ¬b.id < a.id := fun a b h h' => absurd (BitVec.lt_trans h h') (BitVec.lt_irrefl _)
  simp only [Phonebook.compared, List.mem_filter, List.mem_filterMap, mem_combinations hordered hasymm, decide_eq_true_eq, Prod.exists]
  constructor
  · rintro ⟨a, b, ⟨⟨ha, hda⟩, ⟨hb, hdb⟩, hlt⟩, hcompare⟩
    exact ⟨a, ha, b, hb, hda, hdb, hlt, hcompare⟩
  · rintro ⟨a, ha, b, hb, hda, hdb, hlt, hcompare⟩
    exact ⟨a, b, ⟨⟨ha, hda⟩, ⟨hb, hdb⟩, hlt⟩, hcompare⟩

/-- A candidate is a pair of entries of the department in the order of their keys that no decision covers. -/
theorem mem_scan : c ∈ s.scan settings department ↔ ∃ a ∈ s.entries, ∃ b ∈ s.entries, a.department = department ∧
    b.department = department ∧ a.id < b.id ∧ comparePhonebookEntries settings a b = some c ∧ s.decided department c = false := by
  rw [scan_eq, List.mem_filter, mem_compared, Bool.not_eq_true']
  constructor
  · rintro ⟨⟨a, ha, b, hb, hda, hdb, hlt, hcompare⟩, hdecided⟩
    exact ⟨a, ha, b, hb, hda, hdb, hlt, hcompare, hdecided⟩
  · rintro ⟨a, ha, b, hb, hda, hdb, hlt, hcompare, hdecided⟩
    exact ⟨⟨a, ha, b, hb, hda, hdb, hlt, hcompare⟩, hdecided⟩

theorem mem_findDuplicateCandidates : c ∈ s.findDuplicateCandidates settings department ↔ c ∈ s.scan settings department :=
  List.mem_mergeSort

/-- The entries of a key are one. -/
theorem Phonebook.entry_unique (ha : a ∈ s.entries) (hb : b ∈ s.entries) (h : a.id = b.id) : a = b := by
  have hforward : s.entries.Pairwise fun x y => x.id = y.id → x = y :=
    s.ordered.imp fun hlt heq => absurd (heq ▸ hlt) (BitVec.lt_irrefl _)
  have hbackward : s.entries.Pairwise fun x y => y.id = x.id → y = x :=
    s.ordered.imp fun hlt heq => absurd (heq ▸ hlt) (BitVec.lt_irrefl _)
  exact List.Pairwise.forall_of_forall_of_flip (fun _ _ _ => rfl) hforward hbackward ha hb h

/-! ### Resolution -/

/-- The entry a text names. -/
theorem find_entry {id : Text} (h : s.entries.find? (fun e => e.department = department ∧ e.id.str = id) = some a) :
    a ∈ s.entries ∧ a.department = department ∧ a.id.str = id := by
  have hfound := List.find?_some h
  simp only [decide_eq_true_eq] at hfound
  exact ⟨List.mem_of_find?_eq_some h, hfound⟩

theorem find_entry_of_mem (ha : a ∈ s.entries) (hdepartment : a.department = department) :
    s.entries.find? (fun e => e.department = department ∧ e.id.str = a.id.str) = some a := by
  cases h : s.entries.find? (fun e => e.department = department ∧ e.id.str = a.id.str) with
  | none =>
    have hno := List.find?_eq_none.mp h a ha
    simp [hdepartment] at hno
  | some e =>
    obtain ⟨he, -, hid⟩ := find_entry h
    rw [s.entry_unique he ha (Numerals.str_injective hid)]

theorem deletePhonebookEntry_eq_ok {admin : Uuid → Bool} (ha : a ∈ s.entries) :
    s.deletePhonebookEntry admin a.id = .ok t ↔ admin a.department = true ∧ t = s.delete a.id := by
  have hfind : s.entries.find? (·.id = a.id) = some a := by
    cases h : s.entries.find? (·.id = a.id) with
    | none =>
      have hno := List.find?_eq_none.mp h a ha
      simp at hno
    | some e =>
      have hid := List.find?_some h
      simp only [decide_eq_true_eq] at hid
      rw [s.entry_unique (List.mem_of_find?_eq_some h) ha hid]
  unfold Phonebook.deletePhonebookEntry
  simp only [hfind]
  split
  · rename_i hadmin
    simp only [hadmin, true_and]
    exact pure_eq_ok.trans eq_comm
  · rename_i hadmin
    simp [hadmin, throw_ne_ok]

/-- What a resolution that is accepted was given, and what it does. -/
structure Resolves (settings : Settings) (s : Phonebook) (department : Uuid) (action : String) (a b : PhonebookEntry)
    (t : Phonebook) : Prop where
  first : a ∈ s.entries ∧ a.department = department
  second : b ∈ s.entries ∧ b.department = department
  different : a.id ≠ b.id
  effect : action = "keep_both" ∧ t = s.decide ⟨department, a.id, b.id, entryFingerprint settings a.toEntryFields,
      entryFingerprint settings b.toEntryFields⟩ ∨
    action = "keep_first" ∧ t = s.delete b.id ∨ action = "keep_second" ∧ t = s.delete a.id

theorem resolves_of_ok {admin : Uuid → Bool} {firstId secondId firstFingerprint secondFingerprint : Text} {action : String}
    (h : s.resolvePhonebookDuplicate settings admin department firstId secondId firstFingerprint secondFingerprint action = .ok t) :
    ∃ a b, a.id.str = firstId ∧ b.id.str = secondId ∧ Resolves settings s department action a b t := by
  simp only [Phonebook.resolvePhonebookDuplicate, check_eq_ok] at h
  obtain ⟨-, -, h⟩ := h
  split at h
  · rename_i a b hfirst hsecond
    obtain ⟨ha, hda, hida⟩ := find_entry hfirst
    obtain ⟨hb, hdb, hidb⟩ := find_entry hsecond
    split at h
    · cases h
    · rename_i hdifferent
      split at h
      · cases h
      · rename_i hfingerprints
        simp only [not_or, not_not] at hfingerprints
        obtain ⟨rfl, rfl⟩ := hfingerprints
        refine ⟨a, b, hida, hidb, ⟨ha, hda⟩, ⟨hb, hdb⟩, hdifferent, ?_⟩
        split at h
        · cases h
          exact .inl ⟨‹_›, rfl⟩
        · split at h
          · exact .inr (.inl ⟨‹_›, ((deletePhonebookEntry_eq_ok hb).mp h).2⟩)
          · split at h
            · exact .inr (.inr ⟨‹_›, ((deletePhonebookEntry_eq_ok ha).mp h).2⟩)
            · cases h
  · cases h

/-! ### What a resolution does to the candidates -/

theorem filterMap_filter_comm {α β : Type} {f : α → Option β} {p : β → Bool} {q : α → Bool} {l : List α}
    (h : ∀ x ∈ l, ∀ y, f x = some y → p y = q x) : (l.filter q).filterMap f = (l.filterMap f).filter p := by
  induction l with
  | nil => rfl
  | cons x rest ih =>
    have hrest := ih fun y hy => h y (List.mem_cons_of_mem _ hy)
    cases hx : f x with
    | none =>
      rw [List.filterMap_cons_none hx, List.filter_cons]
      split
      · rw [List.filterMap_cons_none hx, hrest]
      · exact hrest
    | some y =>
      have hpq := h x List.mem_cons_self y hx
      rw [List.filterMap_cons_some hx, List.filter_cons, List.filter_cons, hpq]
      split
      · rw [List.filterMap_cons_some hx, hrest]
      · exact hrest

theorem mem_decide {d row : PhonebookDuplicateDecision} : row ∈ (s.decide d).decisions ↔
    row = d ∨ row ∈ s.decisions ∧ ¬(row.firstEntry = d.firstEntry ∧ row.secondEntry = d.secondEntry) := by
  unfold Phonebook.decide
  dsimp only
  split
  · rename_i hany
    simp only [List.any_eq_true, decide_eq_true_eq] at hany
    obtain ⟨old, hold, hkey⟩ := hany
    simp only [List.mem_map, decide_eq_true_eq]
    constructor
    · rintro ⟨r, hr, rfl⟩
      split
      · exact .inl rfl
      · exact .inr ⟨hr, ‹_›⟩
    · rintro (rfl | ⟨hr, hother⟩)
      · exact ⟨old, hold, by rw [if_pos hkey]⟩
      · exact ⟨row, hr, by rw [if_neg hother]⟩
  · rename_i hnone
    simp only [List.any_eq_true, decide_eq_true_eq, not_exists, not_and] at hnone
    simp only [List.mem_append, List.mem_singleton]
    constructor
    · rintro (hr | rfl)
      · exact .inr ⟨hr, fun hkey => hnone row hr hkey.1 hkey.2⟩
      · exact .inl rfl
    · rintro (rfl | ⟨hr, -⟩)
      · exact .inr rfl
      · exact .inl hr

theorem decided_eq_true : s.decided department c = true ↔ ∃ d ∈ s.decisions, d.department = department ∧
    d.firstEntry = c.first.id ∧ d.secondEntry = c.second.id ∧ d.firstFingerprint = c.firstFingerprint ∧
    d.secondFingerprint = c.secondFingerprint := by
  simp only [Phonebook.decided, List.any_eq_true, decide_eq_true_eq]

/-- The candidate is about the two keys, in this order. -/
def DuplicateCandidate.Pairs (c : DuplicateCandidate) (first second : Uuid) : Prop := c.first.id = first ∧ c.second.id = second

instance DuplicateCandidate.decidablePairs (c : DuplicateCandidate) (first second : Uuid) : Decidable (c.Pairs first second) := inferInstanceAs (Decidable (_ ∧ _))

/-- A decision covers the pair it names, and the other decisions stay. -/
theorem decided_decide {d : PhonebookDuplicateDecision} : (s.decide d).decided department c = true ↔
    if c.Pairs d.firstEntry d.secondEntry then
      d.department = department ∧ d.firstFingerprint = c.firstFingerprint ∧ d.secondFingerprint = c.secondFingerprint
    else s.decided department c = true := by
  simp only [decided_eq_true, mem_decide]
  split
  · rename_i hpair
    constructor
    · rintro ⟨row, rfl | ⟨-, hother⟩, hdepartment, hfirst, hsecond, hprints⟩
      · exact ⟨hdepartment, hprints⟩
      · exact absurd ⟨hfirst.trans hpair.1, hsecond.trans hpair.2⟩ hother
    · rintro ⟨hdepartment, hprints⟩
      exact ⟨d, .inl rfl, hdepartment, hpair.1.symm, hpair.2.symm, hprints⟩
  · rename_i hpair
    constructor
    · rintro ⟨row, rfl | ⟨hrow, -⟩, hdepartment, hfirst, hsecond, hprints⟩
      · exact absurd ⟨hfirst.symm, hsecond.symm⟩ hpair
      · exact ⟨row, hrow, hdepartment, hfirst, hsecond, hprints⟩
    · rintro ⟨row, hrow, hdepartment, hfirst, hsecond, hprints⟩
      refine ⟨row, .inr ⟨hrow, fun hkey => hpair ?_⟩, hdepartment, hfirst, hsecond, hprints⟩
      exact ⟨hfirst.symm.trans hkey.1, hsecond.symm.trans hkey.2⟩

/-- Keeping both hides their pair, as far as it is found in the order it was named in. -/
theorem scan_keepBoth {named : Uuid} (h : Resolves settings s named "keep_both" a b t) :
    t.scan settings department = (s.scan settings department).filter fun c => ¬c.Pairs a.id b.id := by
  obtain ⟨⟨ha, hda⟩, ⟨hb, hdb⟩, -, ⟨-, rfl⟩ | ⟨hno, -⟩ | ⟨hno, -⟩⟩ := h
  · rw [scan_eq, scan_eq, List.filter_filter]
    change (s.compared settings department).filter _ = _
    refine List.filter_congr fun c hc => ?_
    obtain ⟨x, hx, y, hy, hdx, hdy, hlt, hcompare⟩ := mem_compared.mp hc
    obtain ⟨rfl, rfl, hfirst, hsecond⟩ := comparePhonebookEntries_eq_some hcompare
    rw [Bool.eq_iff_iff]
    simp only [Bool.not_eq_true', Bool.and_eq_true, decide_eq_true_eq, ← Bool.not_eq_true, decided_decide]
    by_cases hpair : c.Pairs a.id b.id
    · -- The pair consists of the two entries as they are now.
      have hxa : c.first = a := s.entry_unique hx ha hpair.1
      have hyb : c.second = b := s.entry_unique hy hb hpair.2
      rw [if_pos hpair]
      simp only [hpair, not_true_eq_false, false_and, iff_false, not_not]
      rw [hfirst, hsecond, hxa, hyb]
      exact ⟨by rw [← hda, ← hxa, hdx], rfl, rfl⟩
    · rw [if_neg hpair]
      simp only [hpair, not_false_eq_true, true_and]
  · exact absurd hno (by decide)
  · exact absurd hno (by decide)

/-- A deletion takes the candidates of the entry with it. -/
theorem scan_delete (id : Uuid) : (s.delete id).scan settings department =
    (s.scan settings department).filter fun c => c.first.id ≠ id ∧ c.second.id ≠ id := by
  have hcompared : (s.delete id).compared settings department =
      (s.compared settings department).filter fun c => c.first.id ≠ id ∧ c.second.id ≠ id := by
    unfold Phonebook.compared Phonebook.delete
    dsimp only
    rw [List.filter_comm, combinations_filter]
    refine filterMap_filter_comm fun q _ c hc => ?_
    obtain ⟨hfirst, hsecond, -, -⟩ := comparePhonebookEntries_eq_some hc
    rw [hfirst, hsecond, Bool.eq_iff_iff]
    simp only [decide_eq_true_eq, Bool.and_eq_true]
  rw [scan_eq, scan_eq, hcompared, List.filter_filter, List.filter_filter]
  refine List.filter_congr fun c _ => ?_
  rw [Bool.eq_iff_iff]
  simp only [Bool.not_eq_true', Bool.and_eq_true, decide_eq_true_eq, ← Bool.not_eq_true, decided_eq_true]
  rw [and_comm]
  refine and_congr_right fun hids => not_congr ⟨?_, ?_⟩
  · rintro ⟨d, hd, hrest⟩
    exact ⟨d, (List.mem_filter.mp hd).1, hrest⟩
  · rintro ⟨d, hd, hdepartment, hfirst, hsecond, hprints⟩
    refine ⟨d, List.mem_filter.mpr ⟨hd, ?_⟩, hdepartment, hfirst, hsecond, hprints⟩
    rw [hfirst, hsecond]
    exact decide_eq_true hids

/-- The pair leaves the candidates, and no other does. -/
def HidesExactly (settings : Settings) (s t : Phonebook) (first second : Uuid) : Prop :=
  ∀ department c, c ∈ t.findDuplicateCandidates settings department ↔
    c ∈ s.findDuplicateCandidates settings department ∧ ¬(c.Pairs first second ∨ c.Pairs second first)

theorem pairs_lt (hc : c ∈ s.scan settings department) {first second : Uuid} (h : c.Pairs first second) : first < second := by
  obtain ⟨x, -, y, -, -, -, hlt, hcompare, -⟩ := mem_scan.mp hc
  obtain ⟨rfl, rfl, -, -⟩ := comparePhonebookEntries_eq_some hcompare
  rw [← h.1, ← h.2]
  exact hlt

/-- Keeping both hides their pair exactly when it was named in the order of the keys, or was no candidate. -/
theorem hidesExactly_iff {named : Uuid} (h : Resolves settings s named "keep_both" a b t) :
    HidesExactly settings s t a.id b.id ↔
      a.id < b.id ∨ ∀ department, ∀ c ∈ s.findDuplicateCandidates settings department, ¬c.Pairs b.id a.id := by
  have hafter : ∀ department c, c ∈ t.findDuplicateCandidates settings department ↔
      c ∈ s.scan settings department ∧ ¬c.Pairs a.id b.id := by
    intro department c
    rw [mem_findDuplicateCandidates, scan_keepBoth h, List.mem_filter, decide_eq_true_eq]
  constructor
  · intro hides
    by_cases hlt : a.id < b.id
    · exact .inl hlt
    · refine .inr fun department c hc hpair => ?_
      have hbefore := mem_findDuplicateCandidates.mp hc
      have hnot : ¬c.Pairs a.id b.id := fun hforward => hlt (pairs_lt hbefore hforward)
      have hstays := (hides department c).mp ((hafter department c).mpr ⟨hbefore, hnot⟩)
      exact hstays.2 (.inr hpair)
  · intro hordered department c
    rw [hafter, mem_findDuplicateCandidates]
    refine and_congr_right fun hc => ?_
    rw [not_or]
    refine ⟨fun hnot => ⟨hnot, fun hpair => ?_⟩, fun hnot => hnot.1⟩
    rcases hordered with hlt | hno
    · exact BitVec.lt_irrefl _ (BitVec.lt_trans hlt (pairs_lt hc hpair))
    · exact hno department c (mem_findDuplicateCandidates.mpr hc) hpair

/-! ### Later edits -/

/-- An entry is written by another service. -/
def Phonebook.store (s : Phonebook) (e : PhonebookEntry) : Phonebook where
  entries := s.entries.filter (·.id < e.id) ++ e :: s.entries.filter (e.id < ·.id)
  ordered := by
    refine List.pairwise_append.mpr ⟨s.ordered.filter _, List.pairwise_cons.mpr ⟨fun x hx => ?_, s.ordered.filter _⟩, fun x hx y hy => ?_⟩
    · simpa using (List.mem_filter.mp hx).2
    · have hlow : x.id < e.id := by simpa using (List.mem_filter.mp hx).2
      rcases List.mem_cons.mp hy with rfl | hy
      · exact hlow
      · have hhigh : e.id < y.id := by simpa using (List.mem_filter.mp hy).2
        exact BitVec.lt_trans hlow hhigh
  decisions := s.decisions

inductive Action where
  | resolve (admin : Uuid → Bool) (department : Uuid) (firstId secondId firstFingerprint secondFingerprint : Text) (action : String)
  | delete (admin : Uuid → Bool) (id : Uuid)
  | store (e : PhonebookEntry)

/-- The state after a service; an error changes nothing. -/
def Phonebook.step (settings : Settings) (s : Phonebook) : Action → Phonebook
  | .resolve admin department firstId secondId firstFingerprint secondFingerprint action =>
    match s.resolvePhonebookDuplicate settings admin department firstId secondId firstFingerprint secondFingerprint action with
    | .ok t => t
    | .error _ => s
  | .delete admin id =>
    match s.deletePhonebookEntry admin id with
    | .ok t => t
    | .error _ => s
  | .store e => s.store e

/-- A decision on the two entries as they are. -/
def Settled (settings : Settings) (s : Phonebook) (a b : PhonebookEntry) : Prop :=
  ⟨a.department, a.id, b.id, entryFingerprint settings a.toEntryFields, entryFingerprint settings b.toEntryFields⟩ ∈ s.decisions

theorem settled_hides (ha : a ∈ s.entries) (hb : b ∈ s.entries) (h : Settled settings s a b) (hc : c ∈ s.scan settings department) :
    ¬c.Pairs a.id b.id := by
  rintro ⟨hfirst, hsecond⟩
  obtain ⟨x, hx, y, hy, hdx, -, -, hcompare, hundecided⟩ := mem_scan.mp hc
  obtain ⟨rfl, rfl, hprint, hprint'⟩ := comparePhonebookEntries_eq_some hcompare
  obtain rfl : c.first = a := s.entry_unique hx ha hfirst
  obtain rfl : c.second = b := s.entry_unique hy hb hsecond
  have hdecided : s.decided department c = true := decided_eq_true.mpr ⟨_, h, hdx, rfl, rfl, hprint.symm, hprint'.symm⟩
  rw [hundecided] at hdecided
  cases hdecided

theorem settled_delete {id : Uuid} (ha : a ∈ (s.delete id).entries) (hb : b ∈ (s.delete id).entries) (h : Settled settings s a b) :
    Settled settings (s.delete id) a b := by
  have hka := (List.mem_filter.mp ha).2
  have hkb := (List.mem_filter.mp hb).2
  simp only [decide_eq_true_eq] at hka hkb
  exact List.mem_filter.mpr ⟨h, decide_eq_true ⟨hka, hkb⟩⟩

/-- A decision lasts as long as its entries stay as they were. -/
theorem settled_step (action : Action) (ha : a ∈ s.entries) (hb : b ∈ s.entries) (ha' : a ∈ (s.step settings action).entries)
    (hb' : b ∈ (s.step settings action).entries) (h : Settled settings s a b) : Settled settings (s.step settings action) a b := by
  cases action with
  | resolve admin department firstId secondId firstFingerprint secondFingerprint action =>
    unfold Phonebook.step at ha' hb' ⊢
    dsimp only at ha' hb' ⊢
    cases hok : s.resolvePhonebookDuplicate settings admin department firstId secondId firstFingerprint secondFingerprint action with
    | error e => exact h
    | ok t =>
      simp only [hok] at ha' hb' ⊢
      obtain ⟨x, y, -, -, hresolves⟩ := resolves_of_ok hok
      obtain ⟨⟨hx, hdx⟩, ⟨hy, -⟩, -, ⟨-, rfl⟩ | ⟨-, rfl⟩ | ⟨-, rfl⟩⟩ := hresolves
      · by_cases hkey : a.id = x.id ∧ b.id = y.id
        · -- The pair is decided again, on the same fingerprints.
          obtain rfl : a = x := s.entry_unique ha hx hkey.1
          obtain rfl : b = y := s.entry_unique hb hy hkey.2
          exact mem_decide.mpr (.inl (by rw [hdx]))
        · exact mem_decide.mpr (.inr ⟨h, hkey⟩)
      · exact settled_delete ha' hb' h
      · exact settled_delete ha' hb' h
  | delete admin id =>
    unfold Phonebook.step at ha' hb' ⊢
    dsimp only at ha' hb' ⊢
    cases hok : s.deletePhonebookEntry admin id with
    | error e => exact h
    | ok t =>
      simp only [hok] at ha' hb' ⊢
      unfold Phonebook.deletePhonebookEntry at hok
      split at hok
      · cases hok
      · split at hok
        · cases hok
          exact settled_delete ha' hb' h
        · cases hok
  | store e => exact h

theorem entries_keepBoth {named : Uuid} (h : Resolves settings s named "keep_both" a b t) : t.entries = s.entries := by
  obtain ⟨-, -, -, ⟨-, rfl⟩ | ⟨hno, -⟩ | ⟨hno, -⟩⟩ := h
  · rfl
  · exact absurd hno (by decide)
  · exact absurd hno (by decide)

/-- No candidate of any department is about the two entries. -/
def Hidden (settings : Settings) (s : Phonebook) (first second : Uuid) : Prop :=
  ∀ department, ∀ c ∈ s.findDuplicateCandidates settings department, ¬c.Pairs first second

/-- A pair that looks like a duplicate is hidden by a decision only. -/
theorem hidden_iff (ha : a ∈ s.entries) (hb : b ∈ s.entries) (hdepartment : a.department = b.department) (hlt : a.id < b.id) :
    Hidden settings s a.id b.id ↔ comparePhonebookEntries settings a b = none ∨ Settled settings s a b := by
  constructor
  · intro hidden
    cases hcompare : comparePhonebookEntries settings a b with
    | none => exact .inl rfl
    | some c =>
      obtain ⟨hfirst, hsecond, hprint, hprint'⟩ := comparePhonebookEntries_eq_some hcompare
      cases hdecided : s.decided a.department c with
      | false =>
        have hc : c ∈ s.scan settings a.department :=
          mem_scan.mpr ⟨a, ha, b, hb, rfl, hdepartment.symm, hlt, hcompare, hdecided⟩
        have hpair : c.Pairs a.id b.id := ⟨congrArg PhonebookEntry.id hfirst, congrArg PhonebookEntry.id hsecond⟩
        exact absurd hpair (hidden a.department c (mem_findDuplicateCandidates.mpr hc))
      | true =>
        obtain ⟨d, hd, hdd, hdf, hds, hdp, hdp'⟩ := decided_eq_true.mp hdecided
        have hrow : d = ⟨a.department, a.id, b.id, entryFingerprint settings a.toEntryFields, entryFingerprint settings b.toEntryFields⟩ := by
          cases d
          simp only at hdd hdf hds hdp hdp'
          rw [hdd, hdf, hds, hdp, hdp', hfirst, hsecond, hprint, hprint']
        refine .inr ?_
        unfold Settled
        rw [← hrow]
        exact hd
  · rintro (hnone | hsettled) department c hc
    · intro hpair
      obtain ⟨x, hx, y, hy, -, -, -, hcompare, -⟩ := mem_scan.mp (mem_findDuplicateCandidates.mp hc)
      obtain ⟨rfl, rfl, -, -⟩ := comparePhonebookEntries_eq_some hcompare
      obtain rfl : c.first = a := s.entry_unique hx ha hpair.1
      obtain rfl : c.second = b := s.entry_unique hy hb hpair.2
      rw [hnone] at hcompare
      cases hcompare
    · exact settled_hides ha hb hsettled (mem_findDuplicateCandidates.mp hc)

/-- A pair against the order of its keys is never found. -/
theorem hidden_of_not_lt {first second : Uuid} (h : ¬first < second) : Hidden settings s first second :=
  fun _ _ hc hpair => h (pairs_lt (mem_findDuplicateCandidates.mp hc) hpair)

/-- A pair stays hidden as long as its entries stay as they were. -/
theorem hidden_step (action : Action) (ha : a ∈ s.entries) (hb : b ∈ s.entries) (hdepartment : a.department = b.department)
    (ha' : a ∈ (s.step settings action).entries) (hb' : b ∈ (s.step settings action).entries) (h : Hidden settings s a.id b.id) :
    Hidden settings (s.step settings action) a.id b.id := by
  by_cases hlt : a.id < b.id
  · rw [hidden_iff ha' hb' hdepartment hlt]
    rcases (hidden_iff ha hb hdepartment hlt).mp h with hnone | hsettled
    · exact .inl hnone
    · exact .inr (settled_step action ha hb ha' hb' hsettled)
  · exact hidden_of_not_lt hlt

/-- The two entries are as they were after each of the steps. -/
def Unchanged (settings : Settings) (s : Phonebook) (actions : List Action) (a b : PhonebookEntry) : Prop :=
  ∀ e ∈ Machine.steps (Phonebook.step settings) s actions, a ∈ e.2.2.entries ∧ b ∈ e.2.2.entries

theorem hidden_run {actions : List Action} (ha : a ∈ s.entries) (hb : b ∈ s.entries) (hdepartment : a.department = b.department)
    (h : Hidden settings s a.id b.id) (hstay : Unchanged settings s actions a b) :
    Hidden settings (actions.foldl (Phonebook.step settings) s) a.id b.id := by
  induction actions generalizing s with
  | nil => exact h
  | cons action rest ih =>
    obtain ⟨ha', hb'⟩ := hstay (s, action, s.step settings action) List.mem_cons_self
    have hnext := hidden_step action ha hb hdepartment ha' hb' h
    exact ih ha' hb' hnext fun e he => hstay e (List.mem_cons_of_mem _ he)

/-! ### The review -/

/-- The reviewer decides on the first candidate. -/
def Phonebook.resolveFirst (settings : Settings) (admin : Uuid → Bool) (department : Uuid) (s : Phonebook) (action : String) :
    Phonebook :=
  match s.findDuplicateCandidates settings department with
  | [] => s
  | c :: _ => s.step settings (.resolve admin department c.first.id.str c.second.id.str c.firstFingerprint c.secondFingerprint action)

/-- The decisions on a pair. -/
def decisions : List String := ["keep_both", "keep_first", "keep_second"]

/-- Two entries of the department can be resolved in any way and order. -/
theorem resolve_accepts {admin : Uuid → Bool} {action : String} (hadmin : admin department = true) (haction : action ∈ decisions)
    (ha : a ∈ s.entries) (hda : a.department = department) (hb : b ∈ s.entries) (hdb : b.department = department)
    (hdifferent : a.id ≠ b.id) :
    ∃ t, s.resolvePhonebookDuplicate settings admin department a.id.str b.id.str (entryFingerprint settings a.toEntryFields)
        (entryFingerprint settings b.toEntryFields) action = .ok t ∧ Resolves settings s department action a b t := by
  have hreadable : ¬(Uuid.read settings.decimal a.id.str = none ∨ Uuid.read settings.decimal b.id.str = none) := by
    rw [Numerals.read_str, Numerals.read_str]
    rintro (h | h) <;> cases h
  have hresolve : ∀ t, (if action = "keep_both" then
        Except.ok (s.decide ⟨department, a.id, b.id, entryFingerprint settings a.toEntryFields, entryFingerprint settings b.toEntryFields⟩)
      else if action = "keep_first" then s.deletePhonebookEntry admin b.id
      else if action = "keep_second" then s.deletePhonebookEntry admin a.id
      else throw (.valueError "Unknown duplicate-review action.")) = .ok t →
      s.resolvePhonebookDuplicate settings admin department a.id.str b.id.str (entryFingerprint settings a.toEntryFields)
        (entryFingerprint settings b.toEntryFields) action = .ok t := by
    intro t ht
    refine check_eq_ok.mpr ⟨by simp [hadmin], check_eq_ok.mpr ⟨hreadable, ?_⟩⟩
    simp only [find_entry_of_mem ha hda, find_entry_of_mem hb hdb]
    rw [if_neg hdifferent, if_neg (by simp)]
    exact ht
  have hdelete : ∀ e ∈ s.entries, e.department = department → s.deletePhonebookEntry admin e.id = .ok (s.delete e.id) :=
    fun e he hde => (deletePhonebookEntry_eq_ok he).mpr ⟨by rw [hde]; exact hadmin, rfl⟩
  simp only [decisions, List.mem_cons, List.not_mem_nil, or_false] at haction
  rcases haction with rfl | rfl | rfl
  · exact ⟨_, hresolve _ (if_pos rfl), ⟨ha, hda⟩, ⟨hb, hdb⟩, hdifferent, .inl ⟨rfl, rfl⟩⟩
  · exact ⟨s.delete b.id, hresolve _ (by simpa using hdelete _ hb hdb), ⟨ha, hda⟩, ⟨hb, hdb⟩, hdifferent, .inr (.inl ⟨rfl, rfl⟩)⟩
  · exact ⟨s.delete a.id, hresolve _ (by simpa using hdelete _ ha hda), ⟨ha, hda⟩, ⟨hb, hdb⟩, hdifferent, .inr (.inr ⟨rfl, rfl⟩)⟩

theorem resolve_candidate {admin : Uuid → Bool} {action : String} (hadmin : admin department = true) (haction : action ∈ decisions)
    (hc : c ∈ s.scan settings department) :
    ∃ t, s.resolvePhonebookDuplicate settings admin department c.first.id.str c.second.id.str c.firstFingerprint
        c.secondFingerprint action = .ok t ∧ Resolves settings s department action c.first c.second t := by
  obtain ⟨x, hx, y, hy, hdx, hdy, hlt, hcompare, -⟩ := mem_scan.mp hc
  obtain ⟨rfl, rfl, hfirst, hsecond⟩ := comparePhonebookEntries_eq_some hcompare
  have hdifferent : c.first.id ≠ c.second.id := by
    intro heq
    rw [heq] at hlt
    exact BitVec.lt_irrefl _ hlt
  rw [hfirst, hsecond]
  exact resolve_accepts hadmin haction hx hdx hy hdy hdifferent

theorem length_filter_lt_of_mem {α : Type} {p : α → Bool} {l : List α} {x : α} (hx : x ∈ l) (hp : p x = false) :
    (l.filter p).length < l.length := by
  rw [List.length_filter_lt_length_iff_exists]
  exact ⟨x, hx, by simp [hp]⟩

/-- Every resolution of a candidate leaves fewer. -/
theorem Resolves.shrinks {action : String} (hc : c ∈ s.scan settings department)
    (h : Resolves settings s department action c.first c.second t) :
    (t.scan settings department).length < (s.scan settings department).length := by
  obtain ⟨-, -, -, ⟨rfl, -⟩ | ⟨rfl, rfl⟩ | ⟨rfl, rfl⟩⟩ := id h
  · rw [scan_keepBoth h]
    exact length_filter_lt_of_mem hc (by simp [DuplicateCandidate.Pairs])
  · rw [scan_delete]
    exact length_filter_lt_of_mem hc (by simp)
  · rw [scan_delete]
    exact length_filter_lt_of_mem hc (by simp)

theorem review_ends {admin : Uuid → Bool} (hadmin : admin department = true) {actions : List String}
    (hactions : ∀ action ∈ actions, action ∈ decisions)
    (hlength : (s.findDuplicateCandidates settings department).length ≤ actions.length) :
    (actions.foldl (Phonebook.resolveFirst settings admin department) s).findDuplicateCandidates settings department = [] := by
  induction actions generalizing s with
  | nil => exact List.length_eq_zero_iff.mp (Nat.le_zero.mp hlength)
  | cons action rest ih =>
    have hrest : ∀ action ∈ rest, action ∈ decisions := fun action haction => hactions action (List.mem_cons_of_mem _ haction)
    refine ih hrest ?_
    unfold Phonebook.resolveFirst
    cases hfound : s.findDuplicateCandidates settings department with
    | nil =>
      simp only [hfound]
      exact Nat.zero_le _
    | cons c others =>
      have hc : c ∈ s.scan settings department := mem_findDuplicateCandidates.mp (hfound ▸ List.mem_cons_self)
      obtain ⟨t, hok, hresolves⟩ := resolve_candidate hadmin (hactions action List.mem_cons_self) hc
      have hshrinks := hresolves.shrinks hc
      simp only [Phonebook.step, hok]
      rw [Phonebook.findDuplicateCandidates, List.length_mergeSort] at hlength ⊢
      rw [List.length_cons] at hlength
      omega

/-- Keeping both hides their pair, no other one, and for as long as the two entries stay as they are. -/
def KeepsBoth (settings : Settings) (s t : Phonebook) (a b : PhonebookEntry) : Prop :=
  HidesExactly settings s t a.id b.id ∧ ∀ actions, Unchanged settings t actions a b →
    Hidden settings (actions.foldl (Phonebook.step settings) t) a.id b.id ∧
    Hidden settings (actions.foldl (Phonebook.step settings) t) b.id a.id

theorem keepsBoth_iff {named : Uuid} (h : Resolves settings s named "keep_both" a b t) :
    KeepsBoth settings s t a b ↔ a.id < b.id ∨ Hidden settings s b.id a.id := by
  have hexact := hidesExactly_iff h
  constructor
  · exact fun hkeeps => hexact.mp hkeeps.1
  · intro hcondition
    have hides := hexact.mpr hcondition
    have hentries := entries_keepBoth h
    have ha : a ∈ t.entries := by
      rw [hentries]
      exact h.first.1
    have hb : b ∈ t.entries := by
      rw [hentries]
      exact h.second.1
    have hdepartment : a.department = b.department := h.first.2.trans h.second.2.symm
    refine ⟨hides, fun actions hstay => ⟨?_, ?_⟩⟩
    · refine hidden_run ha hb hdepartment (fun department c hc hpair => ?_) hstay
      exact ((hides department c).mp hc).2 (.inl hpair)
    · refine hidden_run hb ha hdepartment.symm (fun department c hc hpair => ?_) fun e he => (hstay e he).symm
      exact ((hides department c).mp hc).2 (.inr hpair)

/-- Only the entry is gone, with the decisions on it. -/
def DeletesOnly (s t : Phonebook) (e : PhonebookEntry) : Prop :=
  (∀ x, x ∈ t.entries ↔ x ∈ s.entries ∧ x ≠ e) ∧
  ∀ d, d ∈ t.decisions ↔ d ∈ s.decisions ∧ d.firstEntry ≠ e.id ∧ d.secondEntry ≠ e.id

theorem deletesOnly_delete (ha : a ∈ s.entries) : DeletesOnly s (s.delete a.id) a := by
  refine ⟨fun x => ?_, fun d => ?_⟩
  · simp only [Phonebook.delete, List.mem_filter, decide_eq_true_eq]
    refine and_congr_right fun hx => not_congr ⟨fun hid => s.entry_unique hx ha hid, fun heq => heq ▸ rfl⟩
  · simp only [Phonebook.delete, List.mem_filter, decide_eq_true_eq]

/-- Duplicate review: a fingerprint belongs to one entry exactly when no free text holds the separator, a comparison
has no direction, keeping both hides the pair exactly when it is named in the order of the keys or was hidden before,
keeping one deletes the other, and deciding on the first candidate again and again leaves none. -/
theorem duplicate_review (settings : Settings) (hsha : Function.Injective settings.sha256) :
    (∀ e, (∀ b, entryFingerprint settings b = entryFingerprint settings e → b = e) ↔ Separable e) ∧
    (∀ a b, comparePhonebookEntries settings b a = (comparePhonebookEntries settings a b).map DuplicateCandidate.swap) ∧
    (∀ (s t : Phonebook) admin department firstId secondId firstFingerprint secondFingerprint action,
      s.resolvePhonebookDuplicate settings admin department firstId secondId firstFingerprint secondFingerprint action = .ok t →
      ∃ a ∈ s.entries, ∃ b ∈ s.entries, a.id.str = firstId ∧ b.id.str = secondId ∧
        (action = "keep_both" ∧ (KeepsBoth settings s t a b ↔ a.id < b.id ∨ Hidden settings s b.id a.id) ∨
          action = "keep_first" ∧ DeletesOnly s t b ∨ action = "keep_second" ∧ DeletesOnly s t a)) ∧
    ∀ (s : Phonebook) admin department, admin department = true → ∀ actions : List String, (∀ action ∈ actions, action ∈ decisions) →
      (s.findDuplicateCandidates settings department).length ≤ actions.length →
      (actions.foldl (Phonebook.resolveFirst settings admin department) s).findDuplicateCandidates settings department = [] := by
  refine ⟨fun e => fingerprint_unique_iff hsha, comparePhonebookEntries_comm, ?_, fun s admin department hadmin actions => review_ends hadmin⟩
  intro s t admin department firstId secondId firstFingerprint secondFingerprint action hok
  obtain ⟨a, b, hfirst, hsecond, hresolves⟩ := resolves_of_ok hok
  refine ⟨a, hresolves.first.1, b, hresolves.second.1, hfirst, hsecond, ?_⟩
  rcases hresolves.effect with ⟨rfl, -⟩ | ⟨haction, rfl⟩ | ⟨haction, rfl⟩
  · exact .inl ⟨rfl, keepsBoth_iff hresolves⟩
  · exact .inr (.inl ⟨haction, deletesOnly_delete hresolves.second.1⟩)
  · exact .inr (.inr ⟨haction, deletesOnly_delete hresolves.first.1⟩)

/-- Texts are their own folded form and digest. -/
def plain : Settings := { fold := id, decimal := fun _ => none, sha256 := id }

/-- Every actor administers every department. -/
def everyone : Uuid → Bool := fun _ => true

/-- Two entries of one name and function, with other telephone numbers. -/
def duty (id : Uuid) (phoneNumber : String) : PhonebookEntry where
  department := 1
  station := none
  firstName := Json.text "Uwe"
  lastName := Json.text "Behn"
  organizationUnit := []
  function := Json.text "duty"
  phoneNumber := Json.text phoneNumber
  id := id

def dutyBook : Phonebook where
  entries := [duty 1 "4101", duty 2 "4102"]
  ordered := by simp [duty]
  decisions := []

theorem duplicate_review_duty :
    (∀ b, entryFingerprint plain b = entryFingerprint plain (duty 1 "4101").toEntryFields → b = (duty 1 "4101").toEntryFields) ∧
    (["keep_both"].foldl (Phonebook.resolveFirst plain everyone 1) dutyBook).findDuplicateCandidates plain 1 = [] := by
  obtain ⟨hprint, -, -, hends⟩ := duplicate_review plain Function.injective_id
  have hseparable : ∀ t ∈ [Json.text "Uwe", Json.text "Behn", [], Json.text "duty", Json.text "4101"], separator ∉ t := by decide
  have hlength : (dutyBook.findDuplicateCandidates plain 1).length ≤ 1 := by
    rw [Phonebook.findDuplicateCandidates, List.length_mergeSort]
    decide
  exact ⟨(hprint _).mpr hseparable, hends dutyBook _ 1 rfl ["keep_both"] (by decide) hlength⟩

/-- A separator in a name moves to the other name, and a pair named against the order of its keys comes back. -/
theorem duplicate_review_slips :
    (∃ a b : EntryFields, a ≠ b ∧ entryFingerprint plain a = entryFingerprint plain b) ∧
    ∃ t, dutyBook.resolvePhonebookDuplicate plain everyone 1 (duty 2 "4102").id.str (duty 1 "4101").id.str
        (entryFingerprint plain (duty 2 "4102").toEntryFields) (entryFingerprint plain (duty 1 "4101").toEntryFields) "keep_both" = .ok t ∧
      ¬KeepsBoth plain dutyBook t (duty 2 "4102") (duty 1 "4101") := by
  constructor
  · let first : EntryFields := { (duty 1 "4101").toEntryFields with firstName := [65, separator, 66], lastName := [67] }
    let second : EntryFields := { (duty 1 "4101").toEntryFields with firstName := [65], lastName := [66, separator, 67] }
    exact ⟨first, second, by decide, rfl⟩
  · have hfirst : duty 1 "4101" ∈ dutyBook.entries := List.mem_cons_self
    have hsecond : duty 2 "4102" ∈ dutyBook.entries := List.mem_cons_of_mem _ List.mem_cons_self
    have hadmin : everyone 1 = true := rfl
    have haction : "keep_both" ∈ decisions := List.mem_cons_self
    obtain ⟨t, hok, hresolves⟩ := resolve_accepts hadmin haction hsecond rfl hfirst rfl (by decide)
    refine ⟨t, hok, fun hkeeps => ?_⟩
    rcases (keepsBoth_iff hresolves).mp hkeeps with hlt | hidden
    · exact absurd hlt (by decide)
    · rcases (hidden_iff hfirst hsecond rfl (by decide)).mp hidden with hnone | hsettled
      · exact absurd hnone (by decide)
      · exact List.not_mem_nil hsettled

end

end FireDash.ReferenceData
