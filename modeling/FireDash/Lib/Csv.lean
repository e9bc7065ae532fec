import FireDash.Lib.Json

/-! The reader of Python's `csv` module in its default dialect, over the lines of a text. -/
namespace FireDash.Csv

open Json (Text)

/-- The states between two characters. -/
inductive Phase where
  | startRecord
  | startField
  | inField
  | inQuotedField
  | quoteInQuotedField
  | eatCrnl
  deriving DecidableEq

inductive Error where
  /-- "new-line character seen in unquoted field" -/
  | newLine
  /-- "field larger than field limit" -/
  | fieldLimit
  deriving DecidableEq

def fieldLimit : ℕ := 131072

/-- The field that is read, and those before it in its record. -/
structure Reader where
  phase : Phase := .startRecord
  field : Text := []
  fields : List Text := []
  deriving DecidableEq

namespace Reader

/-- `parse_add_char` -/
def addChar (r : Reader) (c : ℕ) (phase : Phase) : Except Error Reader :=
  if fieldLimit ≤ r.field.length then .error .fieldLimit else .ok { r with field := r.field ++ [c], phase := phase }

/-- `parse_save_field` -/
def saveField (r : Reader) (phase : Phase) : Reader := { phase := phase, fields := r.fields ++ [r.field] }

def isBreak (c : ℕ) : Bool := c = 10 ∨ c = 13

/-- A character where a field may start. -/
def startField (r : Reader) (c : ℕ) : Except Error Reader :=
  if isBreak c then .ok (r.saveField .eatCrnl)
  else if c = 34 then .ok { r with phase := .inQuotedField }
  else if c = 44 then .ok (r.saveField .startField)
  else r.addChar c .inField

/-- `parse_process_char` -/
def processChar (r : Reader) (c : ℕ) : Except Error Reader :=
  match r.phase with
  | .startRecord => if isBreak c then .ok { r with phase := .eatCrnl } else r.startField c
  | .startField => r.startField c
  | .inField =>
    if isBreak c then .ok (r.saveField .eatCrnl)
    else if c = 44 then .ok (r.saveField .startField)
    else r.addChar c .inField
  | .inQuotedField => if c = 34 then .ok { r with phase := .quoteInQuotedField } else r.addChar c .inQuotedField
  | .quoteInQuotedField =>
    if c = 34 then r.addChar c .inQuotedField
    else if c = 44 then .ok (r.saveField .startField)
    else if isBreak c then .ok (r.saveField .eatCrnl)
    else r.addChar c .inField
  | .eatCrnl => if isBreak c then .ok r else .error .newLine

/-- `parse_process_char` at the end of a line. -/
def endLine (r : Reader) : Reader :=
  match r.phase with
  | .startRecord | .inQuotedField => r
  | .startField | .inField | .quoteInQuotedField => r.saveField .startRecord
  | .eatCrnl => { r with phase := .startRecord }

def processLine (r : Reader) (line : Text) : Except Error Reader := do
  let r ← line.foldlM processChar r
  return r.endLine

end Reader

/-- The lines of a text, each with its line feed. -/
def lines : Text → List Text
  | [] => []
  | 10 :: rest => [10] :: lines rest
  | c :: rest =>
    match lines rest with
    | [] => [[c]]
    | line :: others => (c :: line) :: others

/-- The records of the lines; none comes behind an error. A record that ends inside quotes is taken as it is. -/
def readRecords : Reader → List Text → List (Except Error (List Text))
  | r, [] => if r.field ≠ [] ∨ r.phase = .inQuotedField then [.ok (r.saveField .startRecord).fields] else []
  | r, line :: rest =>
    match r.processLine line with
    | .error e => [.error e]
    | .ok r => if r.phase = .startRecord then .ok r.fields :: readRecords {} rest else readRecords r rest

/-- `csv.reader(io.StringIO(text))` -/
def reader (t : Text) : List (Except Error (List Text)) := readRecords {} (lines t)

/-! ### Texts that are never refused -/

section

variable {r r' : Reader} {c n : ℕ} {t line : Text}

/-- A line whose one break is its end. -/
def Ended (line : Text) : Prop := ∃ t, (∀ c ∈ t, Reader.isBreak c = false) ∧ (line = t ∨ line = t ++ [10])

theorem lines_ended (h : ∀ c ∈ t, c ≠ 13) : (∀ line ∈ lines t, Ended line) ∧ (lines t).flatten = t := by
  fun_induction lines t with
  | case1 => exact ⟨nofun, rfl⟩
  | case2 rest ih =>
    obtain ⟨hended, hflatten⟩ := ih fun c hc => h c (List.mem_cons_of_mem _ hc)
    refine ⟨fun line hline => ?_, by rw [List.flatten_cons, hflatten]; rfl⟩
    rcases List.mem_cons.mp hline with rfl | hline
    · exact ⟨[], nofun, .inr rfl⟩
    · exact hended line hline
  | case3 c rest hc hnil ih =>
    obtain ⟨-, hflatten⟩ := ih fun c hc => h c (List.mem_cons_of_mem _ hc)
    have hbreak : Reader.isBreak c = false := by
      have hne := h c List.mem_cons_self
      have hne' : c ≠ 10 := fun heq => hc heq
      simp only [Reader.isBreak, decide_eq_false_iff_not]
      omega
    rw [hnil] at hflatten
    refine ⟨fun line hline => ?_, by rw [← hflatten]; rfl⟩
    rw [List.mem_singleton.mp hline]
    exact ⟨[c], by simpa using hbreak, .inl rfl⟩
  | case4 c rest hc line others hlines ih =>
    obtain ⟨hended, hflatten⟩ := ih fun c hc => h c (List.mem_cons_of_mem _ hc)
    have hbreak : Reader.isBreak c = false := by
      have hne := h c List.mem_cons_self
      have hne' : c ≠ 10 := fun heq => hc heq
      simp only [Reader.isBreak, decide_eq_false_iff_not]
      omega
    rw [hlines] at hended hflatten
    refine ⟨fun l hl => ?_, by rw [← hflatten]; rfl⟩
    rcases List.mem_cons.mp hl with rfl | hl
    · obtain ⟨t, ht, hline⟩ := hended line List.mem_cons_self
      refine ⟨c :: t, List.forall_mem_cons.mpr ⟨hbreak, ht⟩, ?_⟩
      rcases hline with rfl | rfl
      · exact .inl rfl
      · exact .inr rfl
    · exact hended l (List.mem_cons_of_mem _ hl)

/-- The reader has room for so many characters, and is not behind a break. -/
structure Ready (r : Reader) (n : ℕ) : Prop where
  open_record : r.phase ≠ .eatCrnl
  room : r.field.length + n ≤ fieldLimit

theorem addChar_ok (phase : Phase) (h : r.field.length + (n + 1) ≤ fieldLimit) :
    ∃ r', r.addChar c phase = .ok r' ∧ r'.phase = phase ∧ r'.field.length + n ≤ fieldLimit := by
  unfold Reader.addChar
  rw [if_neg (by omega)]
  refine ⟨_, rfl, rfl, ?_⟩
  simp only [List.length_append, List.length_cons, List.length_nil]
  omega

/-- The reader takes every character, and waits for the end of a line only after a break. -/
theorem processChar_ok (h : Ready r (n + 1)) :
    ∃ r', r.processChar c = .ok r' ∧ r'.field.length + n ≤ fieldLimit ∧ (Reader.isBreak c = false → r'.phase ≠ .eatCrnl) := by
  obtain ⟨hopen, hroom⟩ := h
  have hadd : ∀ phase, phase ≠ .eatCrnl → ∃ r', r.addChar c phase = .ok r' ∧ r'.field.length + n ≤ fieldLimit ∧
      (Reader.isBreak c = false → r'.phase ≠ .eatCrnl) := by
    intro phase hphase
    obtain ⟨r', hr', rfl, hlength⟩ := addChar_ok (c := c) phase hroom
    exact ⟨r', hr', hlength, fun _ => hphase⟩
  have hsave : ∀ phase, (Reader.isBreak c = false → phase ≠ .eatCrnl) →
      ∃ r', Except.ok (r.saveField phase) = (.ok r' : Except Error Reader) ∧ r'.field.length + n ≤ fieldLimit ∧
        (Reader.isBreak c = false → r'.phase ≠ .eatCrnl) := by
    intro phase hphase
    refine ⟨_, rfl, ?_, hphase⟩
    simp only [Reader.saveField, List.length_nil]
    omega
  have hstart : ∃ r', r.startField c = .ok r' ∧ r'.field.length + n ≤ fieldLimit ∧ (Reader.isBreak c = false → r'.phase ≠ .eatCrnl) := by
    unfold Reader.startField
    split_ifs with hbreak hquote hcomma
    · exact hsave _ fun hno => absurd (hbreak.symm.trans hno) nofun
    · exact ⟨_, rfl, by dsimp only; omega, fun _ => nofun⟩
    · exact hsave _ fun _ => nofun
    · exact hadd _ nofun
  unfold Reader.processChar
  cases hphase : r.phase with
  | startRecord =>
    dsimp only
    split_ifs with hbreak
    · exact ⟨_, rfl, by dsimp only; omega, fun hno => absurd (hbreak.symm.trans hno) nofun⟩
    · exact hstart
  | startField => exact hstart
  | inField =>
    dsimp only
    split_ifs with hbreak hcomma
    · exact hsave _ fun hno => absurd (hbreak.symm.trans hno) nofun
    · exact hsave _ fun _ => nofun
    · exact hadd _ nofun
  | inQuotedField =>
    dsimp only
    split_ifs with hquote
    · exact ⟨_, rfl, by dsimp only; omega, fun _ => nofun⟩
    · exact hadd _ nofun
  | quoteInQuotedField =>
    dsimp only
    split_ifs with hquote hcomma hbreak
    · exact hadd _ nofun
    · exact hsave _ fun _ => nofun
    · exact hsave _ fun hno => absurd (hbreak.symm.trans hno) nofun
    · exact hadd _ nofun
  | eatCrnl => exact absurd hphase hopen

theorem foldlM_processChar_ok (h : Ready r (t.length + n)) (ht : ∀ c ∈ t, Reader.isBreak c = false) :
    ∃ r', t.foldlM Reader.processChar r = .ok r' ∧ Ready r' n := by
  induction t generalizing r with
  | nil => exact ⟨r, rfl, h.open_record, by simpa using h.room⟩
  | cons c t ih =>
    obtain ⟨hc, ht⟩ := List.forall_mem_cons.mp ht
    have hready : Ready r (t.length + n + 1) := ⟨h.open_record, by
      have hroom := h.room
      rw [List.length_cons] at hroom
      omega⟩
    obtain ⟨r', hr', hroom, hopen⟩ := processChar_ok (c := c) hready
    rw [List.foldlM_cons, hr', ok_bind]
    exact ih ⟨hopen hc, hroom⟩ ht

theorem endLine_ready (h : r.field.length + n ≤ fieldLimit) : Ready r.endLine n := by
  unfold Reader.endLine
  have hn : 0 + n ≤ fieldLimit := by omega
  cases hphase : r.phase with
  | startRecord => exact ⟨by rw [hphase]; nofun, h⟩
  | inQuotedField => exact ⟨by rw [hphase]; nofun, h⟩
  | startField => exact ⟨nofun, hn⟩
  | inField => exact ⟨nofun, hn⟩
  | quoteInQuotedField => exact ⟨nofun, hn⟩
  | eatCrnl => exact ⟨nofun, h⟩

theorem processLine_ok (h : Ready r (line.length + n)) (hline : Ended line) : ∃ r', r.processLine line = .ok r' ∧ Ready r' n := by
  obtain ⟨t, ht, rfl | rfl⟩ := hline
  · obtain ⟨r', hr', hready⟩ := foldlM_processChar_ok h ht
    unfold Reader.processLine
    rw [hr', ok_bind]
    exact ⟨_, rfl, endLine_ready hready.room⟩
  · rw [List.length_append, Nat.add_assoc] at h
    obtain ⟨r', hr', hready⟩ := foldlM_processChar_ok h ht
    have hready' : Ready r' (n + 1) := ⟨hready.open_record, by
      have hroom := hready.room
      rw [List.length_singleton] at hroom
      omega⟩
    obtain ⟨r'', hr'', hroom, -⟩ := processChar_ok (c := 10) hready'
    unfold Reader.processLine
    rw [List.foldlM_append, hr', ok_bind, List.foldlM_cons, hr'', ok_bind, List.foldlM_nil]
    exact ⟨_, rfl, endLine_ready hroom⟩

theorem readRecords_ok {lines : List Text} (h : Ready r lines.flatten.length) (hlines : ∀ line ∈ lines, Ended line) {e : Error} :
    .error e ∉ readRecords r lines := by
  induction lines generalizing r with
  | nil =>
    unfold readRecords
    split <;> simp
  | cons line rest ih =>
    obtain ⟨hline, hrest⟩ := List.forall_mem_cons.mp hlines
    rw [List.flatten_cons, List.length_append] at h
    obtain ⟨r', hr', hready⟩ := processLine_ok h hline
    unfold readRecords
    rw [hr']
    dsimp only
    split
    · have hroom := hready.room
      have hfresh : Ready {} rest.flatten.length := ⟨nofun, by simp only [List.length_nil]; omega⟩
      simpa using ih hfresh hrest
    · exact ih hready hrest

/-- A text without carriage returns, no longer than the limit of a field, is read to its end. -/
theorem reader_ok (hreturn : ∀ c ∈ t, c ≠ 13) (hlength : t.length ≤ fieldLimit) {e : Error} : .error e ∉ reader t := by
  obtain ⟨hended, hflatten⟩ := lines_ended hreturn
  have hfresh : Ready {} (lines t).flatten.length := by
    refine ⟨nofun, ?_⟩
    rw [hflatten]
    simpa using hlength
  exact readRecords_ok hfresh hended

end

end FireDash.Csv
