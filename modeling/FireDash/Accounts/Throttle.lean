import FireDash.Lib.Lockout
import FireDash.Lib.Machine
import FireDash.Lib.Rows

/-! The limit on failed authentications. Each attempt counts against its account and against its source address, and
the attempts of several workers overlap: one reads the clock and asks for a lock, is admitted and verified, and when it fails
it reads the clock again and is recorded in a transaction for each of its subjects. -/
namespace FireDash.Accounts

open Lockout (Attempts Failure Phase between during stale)

inductive Scope
  | password
  | mfa
  | setup
  deriving DecidableEq

inductive Subject
  | account
  | ip
  deriving DecidableEq

/-- What tells the rows apart: `unique_auth_throttle_subject`. -/
structure SubjectKey where
  scope : Scope
  subject : Subject
  subjectHash : String
  deriving DecidableEq

structure AuthenticationThrottle where
  key : SubjectKey
  state : Lockout.Row
  deriving DecidableEq

abbrev Throttles := Rows AuthenticationThrottle.key

/-- Salted digests and the case folding of accounts. -/
structure Digests where
  casefold : String → String
  hash : String → String

/-- One attempt to authenticate, as its view names it. -/
structure Attempt where
  scope : Scope
  account : String
  sourceIp : Option String
  deriving DecidableEq

namespace Attempt

def accountLogin (digests : Digests) (email : String) (clientIp : Option String) : Attempt := ⟨.password, digests.casefold email, clientIp⟩

def mfaEnroll (userId : String) (clientIp : Option String) : Attempt := ⟨.mfa, userId, clientIp⟩

def mfaVerify (userId : String) (clientIp : Option String) : Attempt := ⟨.mfa, userId, clientIp⟩

def reauthenticate (userId : String) (clientIp : Option String) : Attempt := ⟨.mfa, userId, clientIp⟩

def accountSetup (token : String) (clientIp : Option String) : Attempt := ⟨.setup, token, clientIp⟩

/-- An empty address is none. -/
def address (a : Attempt) : Option String := a.sourceIp.filter fun ip => !ip.isEmpty

def hashes (digests : Digests) (a : Attempt) : List String := digests.hash (digests.casefold a.account) :: a.address.toList.map digests.hash

def subjects (digests : Digests) (a : Attempt) : List SubjectKey :=
  ⟨a.scope, .account, digests.hash (digests.casefold a.account)⟩ :: a.address.toList.map fun ip => ⟨a.scope, .ip, digests.hash ip⟩

end Attempt

namespace Throttles

def isThrottled (digests : Digests) (now : ℕ) (t : Throttles) (a : Attempt) : Bool :=
  t.list.any fun r => r.key.scope = a.scope && (a.hashes digests).contains r.key.subjectHash && r.state.isLocked now

def getOrCreate (now : ℕ) (t : Throttles) (key : SubjectKey) : Throttles × AuthenticationThrottle :=
  match h : t.find key with
  | some r => (t, r)
  | none => (t.insert ⟨key, { windowStartedAt := now }⟩ h, ⟨key, { windowStartedAt := now }⟩)

/-- The transaction of `record_auth_failure` for one subject. -/
def recordSubject (l : Lockout) (now : ℕ) (t : Throttles) (key : SubjectKey) : Throttles :=
  let (t, r) := t.getOrCreate now key
  t.save { r with state := (r.state.reopen l now).fail l now }

def state (t : Throttles) (key : SubjectKey) : Option Lockout.Row := (t.find key).map AuthenticationThrottle.state

end Throttles

theorem Attempt.nodup_subjects (digests : Digests) (a : Attempt) : (a.subjects digests).Nodup := by
  unfold subjects
  cases a.address with
  | none => exact List.nodup_singleton _
  | some ip => simp

/-- What a worker does: it asks `is_throttled` with the clock read, verifies an attempt that was let through, or is in
`record_auth_failure` with the clock read and the subjects that are left. -/
inductive Worker
  | idle
  | asking (a : Attempt) (now : ℕ)
  | verifying (a : Attempt)
  | recording (now : ℕ) (subjects : List SubjectKey) (nodup : subjects.Nodup)
  deriving DecidableEq

structure System where
  throttles : Throttles := {}
  workers : List Worker
  now : ℕ := 0

inductive Action
  | wait (elapsed : ℕ)
  /-- A free worker takes an attempt and reads the clock. -/
  | submit (worker : ℕ) (a : Attempt)
  /-- The answer of `is_throttled`. -/
  | answer (worker : ℕ)
  /-- The credentials were wrong: `record_auth_failure` reads the clock. -/
  | fail (worker : ℕ)
  /-- The transaction of its next subject. -/
  | record (worker : ℕ)
  /-- The credentials were right, all is recorded, or the worker was lost. -/
  | leave (worker : ℕ)
  deriving DecidableEq

namespace System

variable (l : Lockout) (digests : Digests)

def submit (s : System) (worker : ℕ) (a : Attempt) : System :=
  match s.workers[worker]? with
  | some .idle => { s with workers := s.workers.set worker (.asking a s.now) }
  | _ => s

def answer (s : System) (worker : ℕ) : System :=
  match s.workers[worker]? with
  | some (.asking a now) =>
    { s with workers := s.workers.set worker (if s.throttles.isThrottled digests now a = true then .idle else .verifying a) }
  | _ => s

def fail (s : System) (worker : ℕ) : System :=
  match s.workers[worker]? with
  | some (.verifying a) => { s with workers := s.workers.set worker (.recording s.now (a.subjects digests) (a.nodup_subjects digests)) }
  | _ => s

def record (s : System) (worker : ℕ) : System :=
  match s.workers[worker]? with
  | some (.recording now (key :: subjects) h) =>
    { s with workers := s.workers.set worker (.recording now subjects (List.nodup_cons.mp h).2), throttles := s.throttles.recordSubject l now key }
  | _ => s

def step (s : System) : Action → System
  | .wait elapsed => { s with now := s.now + elapsed }
  | .submit worker a => s.submit worker a
  | .answer worker => s.answer digests worker
  | .fail worker => s.fail digests worker
  | .record worker => s.record l worker
  | .leave worker => { s with workers := s.workers.set worker .idle }

def machine (workers : ℕ) : Machine System Action where
  init s := s = { workers := List.replicate workers .idle }
  step s a t := t = s.step l digests a

/-- Where a worker stands with an attempt that counts against a subject. -/
def phase (key : SubjectKey) : Worker → Option Phase
  | .verifying a => if key ∈ a.subjects digests then some .admitted else none
  | .recording now subjects _ => if key ∈ subjects then some (.failed now) else none
  | _ => none

/-- What a step records against a subject. -/
def failed (key : SubjectKey) : System × Action × System → Option Failure
  | (s, .record worker, _) =>
    match s.workers[worker]? with
    | some (.recording now (k :: _) _) => if k = key then some ⟨now, s.now⟩ else none
    | _ => none
  | _ => none

def failures (key : SubjectKey) (trace : List (System × Action × System)) : List Failure := trace.filterMap (failed key)

def held (s : System) (key : SubjectKey) : Multiset Phase := (s.workers : Multiset Worker).filterMap (phase digests key)

end System

variable {l : Lockout} {digests : Digests} {workers worker now span : ℕ} {t : Throttles} {s u : System} {key : SubjectKey} {a : Attempt}
  {trace : List (System × Action × System)}

theorem Throttles.getOrCreate_spec (t : Throttles) (now : ℕ) (key : SubjectKey) :
    (t.getOrCreate now key).2 = ⟨key, (t.state key).getD { windowStartedAt := now }⟩ ∧
    ∀ key', (t.getOrCreate now key).1.find key' = if key = key' then some (t.getOrCreate now key).2 else t.find key' := by
  unfold getOrCreate
  split
  · rename_i r hr
    have hkey : r.key = key := Rows.key_of_find hr
    have hstate : t.state key = some r.state := congrArg (Option.map AuthenticationThrottle.state) hr
    rw [hstate, Option.getD_some]
    constructor
    · rw [← hkey]
    · intro key'
      split
      · rename_i heq
        rw [← heq, hr]
      · rfl
  · rename_i hnone
    have hstate : t.state key = none := congrArg (Option.map AuthenticationThrottle.state) hnone
    rw [hstate, Option.getD_none]
    exact ⟨rfl, fun key' => Rows.find_insert hnone key'⟩

theorem Throttles.state_recordSubject (key' : SubjectKey) :
    (t.recordSubject l now key).state key' = if key = key' then some (l.record now (t.state key)) else t.state key' := by
  obtain ⟨hrow, hfind⟩ := t.getOrCreate_spec now key
  unfold recordSubject
  rw [state, Rows.find_save, hfind, hrow]
  split
  · rfl
  · rfl

theorem Attempt.mem_hashes (h : key ∈ a.subjects digests) : key.scope = a.scope ∧ key.subjectHash ∈ a.hashes digests := by
  unfold subjects at h
  unfold hashes
  rcases List.mem_cons.mp h with rfl | h
  · exact ⟨rfl, List.mem_cons_self⟩
  · obtain ⟨ip, hip, rfl⟩ := List.mem_map.mp h
    exact ⟨rfl, List.mem_cons_of_mem _ (List.mem_map_of_mem hip)⟩

/-- Whoever is admitted has no locked subject. -/
theorem Throttles.open_of_not_throttled (h : t.isThrottled digests now a = false) (hkey : key ∈ a.subjects digests) {r : Lockout.Row}
    (hr : t.state key = some r) : r.isLocked now = false := by
  obtain ⟨row, hrow, rfl⟩ := Option.map_eq_some_iff.mp hr
  obtain ⟨hmem, rfl⟩ := Rows.find_eq_some.mp hrow
  obtain ⟨hscope, hhash⟩ := Attempt.mem_hashes hkey
  have hnot := List.any_eq_false.mp h row hmem
  simpa [hscope, hhash] using hnot

namespace System

theorem length_step (action : Action) : (s.step l digests action).workers.length = s.workers.length := by
  cases action with
  | wait elapsed => rfl
  | submit worker a =>
    show (s.submit worker a).workers.length = _
    unfold submit
    split
    · exact List.length_set
    · rfl
  | answer worker =>
    show (s.answer digests worker).workers.length = _
    unfold answer
    split
    · exact List.length_set
    · rfl
  | fail worker =>
    show (s.fail digests worker).workers.length = _
    unfold fail
    split
    · exact List.length_set
    · rfl
  | record worker =>
    show (s.record l worker).workers.length = _
    unfold record
    split
    · exact List.length_set
    · rfl
  | leave worker => exact List.length_set

theorem phase_verifying : phase digests key (.verifying a) = if key ∈ a.subjects digests then some .admitted else none := rfl

theorem phase_recording {read : ℕ} {subjects : List SubjectKey} {nodup : subjects.Nodup} :
    phase digests key (.recording read subjects nodup) = if key ∈ subjects then some (.failed read) else none := rfl

/-- A step of one worker leaves what the others hold. -/
theorem held_set (digests : Digests) (key : SubjectKey) {old : Worker} (hworker : s.workers[worker]? = some old) :
    ∃ rest : List Worker, rest.length < s.workers.length ∧ s.held digests key = Multiset.filterMap (phase digests key) (old ::ₘ rest) ∧
      ∀ throttles new, held digests { s with throttles := throttles, workers := s.workers.set worker new } key =
        Multiset.filterMap (phase digests key) (new ::ₘ rest) := by
  obtain ⟨hlt, hget⟩ := List.getElem?_eq_some_iff.mp hworker
  refine ⟨s.workers.eraseIdx worker, ?_, ?_, fun throttles new => ?_⟩
  · rw [List.length_eraseIdx_of_lt hlt]
    omega
  · unfold held
    rw [← hget, Multiset.cons_coe]
    exact congrArg _ (Multiset.coe_eq_coe.mpr (List.getElem_cons_eraseIdx_perm hlt).symm)
  · unfold held
    rw [Multiset.cons_coe]
    exact congrArg _ (Multiset.coe_eq_coe.mpr (List.set_perm_cons_eraseIdx hlt new))

theorem card_filterMap_le (digests : Digests) (key : SubjectKey) (rest : List Worker) :
    (Multiset.filterMap (phase digests key) rest).card ≤ rest.length := by
  rw [Multiset.filterMap_coe, Multiset.coe_card]
  exact List.length_filterMap_le _ _

/-- A worker has asked at a time that has passed. -/
theorem asked_step (h : ∀ a asked, Worker.asking a asked ∈ s.workers → asked ≤ s.now) (action : Action) :
    ∀ a asked, Worker.asking a asked ∈ (s.step l digests action).workers → asked ≤ (s.step l digests action).now := by
  have hset : ∀ worker new, (∀ a asked, new = Worker.asking a asked → asked ≤ s.now) →
      ∀ a asked, Worker.asking a asked ∈ s.workers.set worker new → asked ≤ s.now := by
    intro worker new hnew a asked hmem
    rcases List.mem_or_eq_of_mem_set hmem with hmem | heq
    · exact h a asked hmem
    · exact hnew a asked heq.symm
  cases action with
  | wait elapsed => exact fun a asked hmem => (h a asked hmem).trans (Nat.le_add_right _ _)
  | submit worker a =>
    show ∀ b asked, Worker.asking b asked ∈ (s.submit worker a).workers → asked ≤ (s.submit worker a).now
    unfold submit
    split
    · refine hset worker _ fun b asked heq => ?_
      cases heq
      exact le_rfl
    · exact h
  | answer worker =>
    show ∀ b asked, Worker.asking b asked ∈ (s.answer digests worker).workers → asked ≤ (s.answer digests worker).now
    unfold answer
    split
    · refine hset worker _ fun b asked heq => ?_
      split at heq
      · cases heq
      · cases heq
    · exact h
  | fail worker =>
    show ∀ b asked, Worker.asking b asked ∈ (s.fail digests worker).workers → asked ≤ (s.fail digests worker).now
    unfold fail
    split
    · exact hset worker _ nofun
    · exact h
  | record worker =>
    show ∀ b asked, Worker.asking b asked ∈ (s.record l worker).workers → asked ≤ (s.record l worker).now
    unfold record
    split
    · exact hset worker _ nofun
    · exact h
  | leave worker => exact hset worker _ nofun

theorem attempts_submit {times : List Failure} (worker : ℕ) (a : Attempt)
    (h : Attempts l workers s.now (s.held digests key) times (s.throttles.state key)) :
    Attempts l workers (s.submit worker a).now ((s.submit worker a).held digests key) times ((s.submit worker a).throttles.state key) := by
  unfold submit
  split
  · rename_i hworker
    obtain ⟨rest, -, hold, hnew⟩ := held_set digests key hworker
    rw [hold, Multiset.filterMap_cons_none _ _ rfl] at h
    rw [hnew, Multiset.filterMap_cons_none _ _ rfl]
    exact h
  · exact h

/-- An attempt is admitted against each of its subjects, while none is locked. -/
theorem attempts_answer {times : List Failure} (worker : ℕ) (hlength : s.workers.length = workers)
    (hasked : ∀ a asked, Worker.asking a asked ∈ s.workers → asked ≤ s.now)
    (h : Attempts l workers s.now (s.held digests key) times (s.throttles.state key)) :
    Attempts l workers (s.answer digests worker).now ((s.answer digests worker).held digests key) times
      ((s.answer digests worker).throttles.state key) := by
  unfold answer
  split
  · rename_i a asked hworker
    obtain ⟨rest, hrest, hold, hnew⟩ := held_set digests key hworker
    rw [hold, Multiset.filterMap_cons_none _ _ rfl] at h
    rw [hnew]
    split
    · rw [Multiset.filterMap_cons_none _ _ rfl]
      exact h
    · rename_i hopen
      by_cases hkey : key ∈ a.subjects digests
      · rw [Multiset.filterMap_cons_some _ _ _ (phase_verifying.trans (if_pos hkey))]
        have hfew := (card_filterMap_le digests key rest).trans_lt hrest
        rw [hlength] at hfew
        refine h.allow (hasked a asked (List.mem_of_getElem? hworker)) hfew fun r hr => ?_
        exact Throttles.open_of_not_throttled (Bool.eq_false_iff.mpr hopen) hkey hr
      · rw [Multiset.filterMap_cons_none _ _ (phase_verifying.trans (if_neg hkey))]
        exact h
  · exact h

theorem attempts_fail {times : List Failure} (worker : ℕ) (h : Attempts l workers s.now (s.held digests key) times (s.throttles.state key)) :
    Attempts l workers (s.fail digests worker).now ((s.fail digests worker).held digests key) times
      ((s.fail digests worker).throttles.state key) := by
  unfold fail
  split
  · rename_i a hworker
    obtain ⟨rest, -, hold, hnew⟩ := held_set digests key hworker
    rw [hnew]
    by_cases hkey : key ∈ a.subjects digests
    · rw [hold, Multiset.filterMap_cons_some _ _ _ (phase_verifying.trans (if_pos hkey))] at h
      rw [Multiset.filterMap_cons_some _ _ _ (phase_recording.trans (if_pos hkey))]
      exact h.read
    · rw [hold, Multiset.filterMap_cons_none _ _ (phase_verifying.trans (if_neg hkey))] at h
      rw [Multiset.filterMap_cons_none _ _ (phase_recording.trans (if_neg hkey))]
      exact h
  · exact h

/-- A transaction counts the failure against its subject, and leaves the others. -/
theorem attempts_record {times : List Failure} (worker : ℕ) (h : Attempts l workers s.now (s.held digests key) times (s.throttles.state key)) :
    Attempts l workers (s.record l worker).now ((s.record l worker).held digests key)
      (times ++ (failed key (s, .record worker, s.record l worker)).toList) ((s.record l worker).throttles.state key) := by
  unfold record
  split
  · rename_i read k subjects hnodup hworker
    obtain ⟨rest, -, hold, hnew⟩ := held_set digests key hworker
    obtain ⟨hnotin, -⟩ := List.nodup_cons.mp hnodup
    have hfailed : ∀ t, failed key (s, .record worker, t) = if k = key then some ⟨read, s.now⟩ else none := by
      intro t
      unfold failed
      simp only [hworker]
    rw [hfailed, hnew, Throttles.state_recordSubject]
    by_cases hk : k = key
    · subst hk
      rw [hold, Multiset.filterMap_cons_some _ _ _ (phase_recording.trans (if_pos List.mem_cons_self))] at h
      rw [Multiset.filterMap_cons_none _ _ (phase_recording.trans (if_neg hnotin)), if_pos rfl, if_pos rfl, Option.toList_some]
      exact h.record
    · have hsame : phase digests key (.recording read (k :: subjects) hnodup) =
          phase digests key (.recording read subjects (List.nodup_cons.mp hnodup).2) := by
        have hmem : key ∈ k :: subjects ↔ key ∈ subjects := by
          rw [List.mem_cons]
          exact or_iff_right fun h => hk h.symm
        simp only [phase_recording, hmem]
      rw [hold, Multiset.filterMap_cons, hsame, ← Multiset.filterMap_cons] at h
      rw [if_neg hk, if_neg hk, Option.toList_none, List.append_nil]
      exact h
  · rename_i hother
    have hnone : failed key (s, .record worker, s) = none := by
      show (match s.workers[worker]? with
        | some (.recording now (k :: _) _) => if k = key then some (⟨now, s.now⟩ : Failure) else none
        | _ => none) = none
      split
      · rename_i read k subjects hnodup hworker
        exact absurd hworker (hother read k subjects hnodup)
      · rfl
    rw [hnone, Option.toList_none, List.append_nil]
    exact h

/-- A worker that has nothing under way any more. -/
theorem attempts_leave {times : List Failure} (worker : ℕ) (h : Attempts l workers s.now (s.held digests key) times (s.throttles.state key)) :
    Attempts l workers s.now (held digests { s with workers := s.workers.set worker .idle } key) times (s.throttles.state key) := by
  cases hworker : s.workers[worker]? with
  | none =>
    rw [List.set_eq_of_length_le (List.getElem?_eq_none_iff.mp hworker)]
    exact h
  | some old =>
    obtain ⟨rest, -, hold, hnew⟩ := held_set digests key hworker
    rw [hnew, Multiset.filterMap_cons_none _ _ rfl]
    rw [hold] at h
    cases hphase : phase digests key old with
    | none => rwa [Multiset.filterMap_cons_none _ _ hphase] at h
    | some p =>
      rw [Multiset.filterMap_cons_some _ _ _ hphase] at h
      exact h.leave

/-- A step is an attempt admitted, failed, recorded or ended against a subject, or nothing to it. -/
theorem attempts_step {times : List Failure} (action : Action) (hlength : s.workers.length = workers)
    (hasked : ∀ a asked, Worker.asking a asked ∈ s.workers → asked ≤ s.now)
    (h : Attempts l workers s.now (s.held digests key) times (s.throttles.state key)) :
    Attempts l workers (s.step l digests action).now ((s.step l digests action).held digests key)
      (times ++ (failed key (s, action, s.step l digests action)).toList) ((s.step l digests action).throttles.state key) := by
  have hnothing : times ++ (none : Option Failure).toList = times := List.append_nil times
  cases action with
  | wait elapsed =>
    rw [show failed key (s, .wait elapsed, _) = none from rfl, hnothing]
    exact h.later (Nat.le_add_right _ _)
  | submit worker a =>
    rw [show failed key (s, .submit worker a, _) = none from rfl, hnothing]
    exact attempts_submit worker a h
  | answer worker =>
    rw [show failed key (s, .answer worker, _) = none from rfl, hnothing]
    exact attempts_answer worker hlength hasked h
  | fail worker =>
    rw [show failed key (s, .fail worker, _) = none from rfl, hnothing]
    exact attempts_fail worker h
  | record worker => exact attempts_record worker h
  | leave worker =>
    rw [show failed key (s, .leave worker, _) = none from rfl, hnothing]
    exact attempts_leave worker h

/-- What a run has done to each subject. -/
theorem attempts_run (key : SubjectKey) (hrun : (machine l digests workers).Run s trace u) :
    u.workers.length = workers ∧ (∀ a asked, Worker.asking a asked ∈ u.workers → asked ≤ u.now) ∧
    Attempts l workers u.now (u.held digests key) (failures key trace) (u.throttles.state key) := by
  induction hrun with
  | start h =>
    obtain rfl := h
    have hnone : held digests { workers := List.replicate workers .idle } key = 0 := by
      unfold held
      rw [Multiset.filterMap_coe, List.filterMap_replicate_of_none rfl]
      rfl
    rw [hnone]
    exact ⟨List.length_replicate, fun a asked hmem => absurd (List.eq_of_mem_replicate hmem) nofun, .start⟩
  | @next t t' trace action h hs ih =>
    obtain ⟨hlength, hasked, hattempts⟩ := ih
    obtain rfl := hs
    have happend : failures key (trace ++ [(t, action, t.step l digests action)]) =
        failures key trace ++ (failed key (t, action, t.step l digests action)).toList := by
      unfold failures
      rw [List.filterMap_append, List.filterMap_cons]
      cases failed key (t, action, t.step l digests action) with
      | none => rfl
      | some failure => rfl
    rw [happend]
    exact ⟨by rw [length_step, hlength], asked_step hasked action, attempts_step action hlength hasked hattempts⟩

/-- However the attempts of the workers overlap, a stretch no longer than the window and the lock sees few failures against any
account or address: twice what one window may hold, which is the limit and the other workers' attempts, and as much again for
each failure that had read the clock before the stretch. There are no more of these than workers. -/
theorem few_failures (hpositive : 0 < l.maxFailures) (hwithin : span ≤ l.window) (hlockout : span ≤ l.lockout)
    (hrun : (machine l digests workers).Run s trace u) (key : SubjectKey) (start : ℕ) :
    between (failures key trace) start (start + span) ≤ (stale (failures key trace) start (start + span) + 2) * (l.maxFailures + workers - 1) +
      stale (failures key trace) start (start + span) ∧ stale (failures key trace) start (start + span) ≤ workers := by
  have hattempts := (attempts_run key hrun).2.2
  exact ⟨hattempts.between_le hpositive hwithin hlockout start, (Nat.le_add_right _ _).trans (hattempts.stale_le start _)⟩

/-- A guess of one worker from its arrival to the verified credentials, and what is left of its failure. -/
def guess (worker : ℕ) : List Action :=
  [.submit worker (.accountLogin ⟨id, id⟩ "chief@fire.example" (some "10.0.0.7")), .answer worker]

def recorded (worker : ℕ) : List Action := [.record worker, .record worker, .leave worker]

/-- Two workers whose first failures are recorded late: the second of them shortens the lock, and a guess that was admitted then
opens another window. The clock counts twentieths of a second. -/
def guesses : List Action :=
  guess 1 ++ [.fail 1, .wait 80] ++ guess 0 ++ [.fail 0, .wait 20] ++ recorded 0 ++
    (List.replicate 4 (guess 0 ++ [.fail 0] ++ recorded 0)).flatten ++ [.wait 1] ++ recorded 1 ++ [.wait 17901] ++
    guess 0 ++ guess 1 ++ [.fail 0] ++ recorded 0 ++ [.wait 79, .fail 1] ++ recorded 1 ++
    (List.replicate 3 (guess 0 ++ [.fail 0] ++ recorded 0)).flatten ++ guess 0 ++ guess 1 ++ [.fail 0] ++ recorded 0 ++ [.fail 1] ++ recorded 1

theorem run_guesses (l : Lockout) (digests : Digests) (actions : List Action) :
    (machine l digests 2).Run { workers := [.idle, .idle] } (Machine.steps (fun s a => s.step l digests a) { workers := [.idle, .idle] } actions)
      (actions.foldl (fun s a => s.step l digests a) { workers := [.idle, .idle] }) := by
  have hstart : (machine l digests 2).Run { workers := [.idle, .idle] } [] { workers := [.idle, .idle] } := .start rfl
  exact hstart.steps fun e he => (Machine.of_mem_steps he).2

theorem guesses_bounded :
    let trace := Machine.steps (fun s a => s.step ⟨5, 18000, 18000⟩ ⟨id, id⟩ a) { workers := [.idle, .idle] } guesses
    let address : SubjectKey := ⟨.password, .ip, "10.0.0.7"⟩
    between (failures address trace) 100 18100 = 13 ∧
    between (failures address trace) 100 (100 + 18000) ≤ (stale (failures address trace) 100 (100 + 18000) + 2) * (5 + 2 - 1) +
      stale (failures address trace) 100 (100 + 18000) := by
  constructor
  · decide +kernel
  · exact (few_failures (by decide) (by decide) (by decide) (run_guesses ⟨5, 18000, 18000⟩ ⟨id, id⟩ guesses) _ 100).1

end System
end FireDash.Accounts
