import Mathlib.Data.List.Palindrome
import EnerSentry.Business.AuthManager
import EnerSentry.Lib.Recent

/-!
The audit log. Which call is audited, and with what entry, is told by a function of its own;
the trail of a run is all that has been audited since the log was last cleared, and the log
keeps the end of it. Both accessors copy it from its old end to its new one.
-/

namespace EnerSentry.Business
open EnerSentry.Lib

namespace AuthManager

def auditLog (m : AuthManager) : List AuditEntry := m.audit

/-- The loop runs up from `size - take`, past which a negative number asks for nothing. -/
def recentAudit (m : AuthManager) (n : Int) : List AuditEntry :=
  let size : Int := m.audit.length
  let take := min n size
  m.audit.drop (size - take).toNat

/-- The entry that a call adds to the log. -/
def entryOf (sha256Hex : ByteArray → String) (m : AuthManager) (e : AuthEvent) : Option AuditEntry :=
  let entry (user action detail : String) (granted : Bool) : Option AuditEntry :=
    some ⟨e.nowMs, user, action, detail, granted⟩
  match e.call with
  | .loadUsersFromJson _ => none
  | .login username password =>
      if m.locked then none
      else if m.barred e.nowMs username then entry username "login" "locked" false
      else if m.verifies sha256Hex username password then entry username "login" "ok" true
      else if kMaxLoginFails ≤ ((m.fails username).getD {}).count + 1 then entry username "login" "locked-5x" false
      else entry username "login" "rejected" false
  | .logout => if m.loggedIn then entry m.currentUser "logout" "" true else none
  | .lock => if m.loggedIn then entry m.currentUser "lock" "" true else none
  | .unlock password =>
      if !m.loggedIn || !m.locked then none
      else if m.verifies sha256Hex m.currentUser password then entry m.currentUser "unlock" "" true
      else entry m.currentUser "unlock" "rejected" false
  | .checkPermission permPoint =>
      if m.permitted permPoint then none else entry m.currentUser ("perm:" ++ permPoint) "denied" false
  | .auditRecord action detail granted => entry m.currentUser action detail granted
  | .clearAudit => none
  | .setMustChange username _ =>
      if (m.findUser username).isNone then none else entry "admin" "user.mustchange" username true
  | .addUser username password _ _ =>
      if username.isEmpty || password.isEmpty || (m.findUser username).isSome then none
      else entry "admin" "user.add" username true
  | .removeUser username =>
      if username = m.currentUser || (m.findUser username).isNone then none
      else entry "admin" "user.remove" username true
  | .changePassword username newPassword _ =>
      if newPassword.isEmpty || (m.findUser username).isNone then none else entry username "user.chpwd" "" true
  | .saveUsersToJson path opened => if opened then entry "admin" "user.save" path true else none

/-- All that is audited, from the last time that the log was cleared. -/
def trail (sha256Hex : ByteArray → String) (m : AuthManager) (entries : List AuditEntry) (e : AuthEvent) :
    List AuditEntry :=
  match e.call with
  | .clearAudit => []
  | _ => entries ++ (entryOf sha256Hex m e).toList

/-- The manager beside the trail of its calls. -/
def audited (sha256Hex : ByteArray → String) : Runs.Step (AuthManager × List AuditEntry) AuthEvent AuthReply :=
  Runs.watch (step sha256Hex) fun m entries e _ => trail sha256Hex m entries e

/-- The log with an entry more, within its cap. -/
def recorded (entries : List AuditEntry) (x : AuditEntry) : List AuditEntry :=
  if kAuditCap < (entries ++ [x]).length then (entries ++ [x]).tail else entries ++ [x]

section Calls
variable {sha256Hex : ByteArray → String} {m : AuthManager} {e : AuthEvent}

theorem appendAudit_audit (nowMs : Nat) (user action detail : String) (granted : Bool) :
    (m.appendAudit nowMs user action detail granted).audit = recorded m.audit ⟨nowMs, user, action, detail, granted⟩ :=
  rfl

theorem login_audit (nowMs : Nat) (username password : String) :
    (m.login sha256Hex nowMs username password).1.audit =
      (entryOf sha256Hex m ⟨nowMs, .login username password⟩).elim m.audit (recorded m.audit) := by
  unfold login entryOf verifies
  simp only
  split
  · rfl
  split
  · rfl
  cases found : m.findUser username with
  | none =>
    simp only [Bool.false_eq_true, if_false, rejectLogin]
    split
    · rfl
    · rfl
  | some u =>
    simp only
    split
    · rfl
    · simp only [rejectLogin]
      split
      · rfl
      · rfl

/-- A call records its entry, if it has one; clearing the log is the only other change. -/
theorem audit_step (sha256Hex : ByteArray → String) (m : AuthManager) (e : AuthEvent) :
    (step sha256Hex m e).1.audit =
      if e.call = .clearAudit then [] else (entryOf sha256Hex m e).elim m.audit (recorded m.audit) := by
  obtain ⟨nowMs, call⟩ := e
  cases call with
  | loadUsersFromJson file =>
    simp only [step, loadUsersFromJson]
    split <;> rfl
  | login username password => exact login_audit nowMs username password
  | logout =>
    simp only [step, logout, entryOf]
    cases m.loggedIn <;> rfl
  | lock =>
    simp only [step, lock, entryOf]
    cases m.loggedIn <;> rfl
  | unlock password =>
    simp only [step, unlock, entryOf]
    split
    · rfl
    · split <;> rfl
  | checkPermission permPoint =>
    simp only [step, checkPermission, entryOf]
    split <;> rfl
  | auditRecord action detail granted => rfl
  | clearAudit => rfl
  | setMustChange username must =>
    simp only [step, setMustChange, entryOf]
    cases m.findUser username <;> rfl
  | addUser username password role salt =>
    simp only [step, addUser, entryOf]
    by_cases blank : (username.isEmpty || password.isEmpty) = true
    · simp [blank]
    · cases m.findUser username with
      | none => simp [blank, appendAudit_audit]
      | some u => simp [blank]
  | removeUser username =>
    simp only [step, removeUser, entryOf]
    by_cases own : username = m.currentUser
    · simp [own]
    · cases m.findUser username with
      | none => simp [own]
      | some u => simp [own, appendAudit_audit]
  | changePassword username newPassword salt =>
    simp only [step, changePassword, entryOf]
    by_cases blank : newPassword.isEmpty = true
    · simp [blank]
    · cases m.findUser username with
      | none => simp [blank]
      | some u => simp [blank, appendAudit_audit, updateUser]
  | saveUsersToJson path opened =>
    simp only [step, saveUsersToJson, entryOf]
    cases opened <;> rfl

/-- Recording keeps the end of what has been recorded. -/
theorem recorded_rtake (entries : List AuditEntry) (x : AuditEntry) :
    recorded (entries.rtake kAuditCap) x = (entries ++ [x]).rtake kAuditCap :=
  Recent.capped_rtake kAuditCap entries x

/-- What one call does to a log that is the end of the trail. -/
theorem kept_step {x : AuthManager × List AuditEntry} (kept : x.1.audit = x.2.rtake kAuditCap) (e : AuthEvent) :
    (audited sha256Hex x e).1.1.audit = (audited sha256Hex x e).1.2.rtake kAuditCap := by
  rw [audited, Runs.watch_fst, Runs.watch_snd, audit_step]
  by_cases cleared : e.call = .clearAudit
  · have emptied : trail sha256Hex x.1 x.2 e = [] := by rw [trail, cleared]
    rw [if_pos cleared, emptied, List.rtake_nil]
  · have more : trail sha256Hex x.1 x.2 e = x.2 ++ (entryOf sha256Hex x.1 e).toList := by
      unfold trail
      split
      · rename_i clears
        exact absurd clears cleared
      · rfl
    rw [if_neg cleared, more, kept]
    cases entryOf sha256Hex x.1 e with
    | none => rw [Option.toList_none, List.append_nil, Option.elim_none]
    | some entry => rw [Option.toList_some, Option.elim_some, recorded_rtake]

end Calls

/-- In every run the log is the end of the trail. -/
theorem kept_run (sha256Hex : ByteArray → String) (es : List AuthEvent) :
    (Runs.run (audited sha256Hex) ({}, []) es).1.audit =
      (Runs.run (audited sha256Hex) ({}, []) es).2.rtake kAuditCap := by
  induction es using List.reverseRecOn with
  | nil => rw [Runs.run, List.rtake_nil]
  | append_singleton es e ih =>
    rw [Runs.run_concat]
    exact kept_step ih e

/-- The entries asked for come in the order in which they were recorded. -/
theorem recentAudit_eq (m : AuthManager) (k : ℕ) : m.recentAudit k = m.auditLog.rtake k := by
  rw [recentAudit, List.rtake, auditLog]
  congr 1
  omega

/-- Every end of a list reads the same backwards if its elements are equal. -/
theorem rtake_reverse_iff {α : Type*} (l : List α) :
    (∀ k, l.rtake k = (l.rtake k).reverse) ↔ ∀ a ∈ l, ∀ b ∈ l, a = b := by
  constructor
  · intro turned
    have last : ∀ a ∈ l, l.getLast? = some a := by
      intro a member
      obtain ⟨i, there⟩ := List.mem_iff_getElem?.mp member
      have inside := (List.getElem?_eq_some_iff.mp there).1
      have place : l.length - (l.length - i) = i := by omega
      have ends := congrArg List.head? (turned (l.length - i))
      rw [List.rtake, place, List.head?_drop, List.head?_reverse, List.getLast?_drop, if_neg (by omega), there] at ends
      exact ends.symm
    intro a first b second
    have same := (last a first).symm.trans (last b second)
    exact Option.some.inj same
  · intro same k
    cases l with
    | nil => rw [List.rtake_nil, List.reverse_nil]
    | cons a rest =>
      have level : a :: rest = List.replicate (rest.length + 1) a :=
        List.eq_replicate_iff.mpr ⟨rfl, fun b member => same b member a List.mem_cons_self⟩
      rw [level, List.rtake, List.drop_replicate, List.reverse_replicate]

/-- In every run the log holds the last entries of the trail in their order, at most a
thousand. As many recent entries as are asked for come with the latest first exactly if they
read the same both ways; so they do for every number if all entries that are held are equal. -/
theorem audit_law_iff (sha256Hex : ByteArray → String) (es : List AuthEvent) :
    (Runs.run (audited sha256Hex) ({}, []) es).1.auditLog =
        (Runs.run (audited sha256Hex) ({}, []) es).2.rtake kAuditCap ∧
      (∀ k : ℕ, (Runs.run (audited sha256Hex) ({}, []) es).1.recentAudit k =
          (((Runs.run (audited sha256Hex) ({}, []) es).2.rtake kAuditCap).rtake k).reverse ↔
        (((Runs.run (audited sha256Hex) ({}, []) es).2.rtake kAuditCap).rtake k).Palindrome) ∧
      ((∀ k : ℕ, (Runs.run (audited sha256Hex) ({}, []) es).1.recentAudit k =
          (((Runs.run (audited sha256Hex) ({}, []) es).2.rtake kAuditCap).rtake k).reverse) ↔
        ∀ x ∈ (Runs.run (audited sha256Hex) ({}, []) es).2.rtake kAuditCap,
          ∀ y ∈ (Runs.run (audited sha256Hex) ({}, []) es).2.rtake kAuditCap, x = y) := by
  have kept : (Runs.run (audited sha256Hex) ({}, []) es).1.auditLog =
      (Runs.run (audited sha256Hex) ({}, []) es).2.rtake kAuditCap := kept_run sha256Hex es
  have copied : ∀ k : ℕ, (Runs.run (audited sha256Hex) ({}, []) es).1.recentAudit k =
      ((Runs.run (audited sha256Hex) ({}, []) es).2.rtake kAuditCap).rtake k := by
    intro k
    rw [recentAudit_eq, kept]
  refine ⟨kept, fun k => ?_, ?_⟩
  · rw [copied, List.Palindrome.iff_reverse_eq]
    exact eq_comm
  · rw [← rtake_reverse_iff]
    apply forall_congr'
    intro k
    rw [copied]

/-- Two records, one after the other. -/
def twoRecords : List AuthEvent := [⟨1, .auditRecord "sbo.select" "" true⟩, ⟨2, .auditRecord "sbo.operate" "" true⟩]

/-- The earlier one comes first in the log, and first among the recent ones. -/
theorem twoRecords_recent :
    (Runs.run (audited fun _ => "") ({}, []) twoRecords).1.auditLog =
        [⟨1, "", "sbo.select", "", true⟩, ⟨2, "", "sbo.operate", "", true⟩] ∧
      (Runs.run (audited fun _ => "") ({}, []) twoRecords).1.recentAudit 2 =
        [⟨1, "", "sbo.select", "", true⟩, ⟨2, "", "sbo.operate", "", true⟩] ∧
      ¬∀ k : ℕ, (Runs.run (audited fun _ => "") ({}, []) twoRecords).1.recentAudit k =
        (((Runs.run (audited fun _ => "") ({}, []) twoRecords).2.rtake kAuditCap).rtake k).reverse := by
  refine ⟨by decide +kernel, by decide +kernel, fun latestFirst => ?_⟩
  have two := latestFirst 2
  revert two
  decide +kernel

end AuthManager
end EnerSentry.Business
