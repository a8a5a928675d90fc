import Mathlib.Data.List.Infix
import Mathlib.Data.List.Induction
import EnerSentry.Business.AuthManager

/-!
What a granted permission rests on. The flags of the session and the table of failed
logins are read off the history: the login that opened the session, the locks and unlocks
since, and the failed logins of a name, every fifth of which in a row bars the name for a
while.
-/

namespace EnerSentry.Business
open EnerSentry.Lib EnerSentry.Lib.Runs

namespace AuthManager

section Fields
variable (m : AuthManager) (nowMs : Nat) (user action detail : String) (granted : Bool)

@[simp] theorem appendAudit_users : (m.appendAudit nowMs user action detail granted).users = m.users := rfl
@[simp] theorem appendAudit_currentUser :
    (m.appendAudit nowMs user action detail granted).currentUser = m.currentUser := rfl
@[simp] theorem appendAudit_currentRole :
    (m.appendAudit nowMs user action detail granted).currentRole = m.currentRole := rfl
@[simp] theorem appendAudit_loggedIn : (m.appendAudit nowMs user action detail granted).loggedIn = m.loggedIn := rfl
@[simp] theorem appendAudit_locked : (m.appendAudit nowMs user action detail granted).locked = m.locked := rfl
@[simp] theorem appendAudit_fails : (m.appendAudit nowMs user action detail granted).fails = m.fails := rfl

end Fields

/-- The session: who is logged in, with what role, and whether the screen is locked. -/
structure Session where
  user : String
  role : UserRole
  loggedIn : Bool
  locked : Bool
  deriving DecidableEq, Repr

def session (m : AuthManager) : Session := ⟨m.currentUser, m.currentRole, m.loggedIn, m.locked⟩

/-- One more failed login on the record of a name. -/
def countFail (f : FailRec) (nowMs : Nat) : FailRec :=
  if kMaxLoginFails ≤ f.count + 1 then { count := 0, lockUntilMs := nowMs + kLockMs }
  else { f with count := f.count + 1 }

variable (sha256Hex : ByteArray → String)

/-- Whether a call is a login of a name whose password is checked, and the result of the check. -/
def checkedLogin (name : String) (v : AuthManager × AuthEvent) : Option Bool :=
  match v.2.call with
  | .login username password =>
      if username = name ∧ v.1.locked = false ∧ v.1.barred v.2.nowMs name = false then
        some (v.1.verifies sha256Hex name password)
      else none
  | _ => none

section Steps
variable {sha256Hex} {m : AuthManager} {e : AuthEvent}

theorem rejectLogin_fails (nowMs : Nat) (name : String) : (m.rejectLogin nowMs name).fails =
    Function.update m.fails name (some (countFail ((m.fails name).getD {}) nowMs)) := by
  unfold rejectLogin countFail
  simp only
  split <;> rfl

theorem rejectLogin_session (nowMs : Nat) (name : String) : (m.rejectLogin nowMs name).session = m.session := by
  unfold rejectLogin
  simp only
  split <;> rfl

/-- A login is refused unseen, rejected or accepted. -/
theorem login_cases (sha256Hex : ByteArray → String) (nowMs : Nat) (username password : String) :
    ((m.locked = true ∨ m.barred nowMs username = true) ∧
        (m.login sha256Hex nowMs username password).1.session = m.session ∧
        (m.login sha256Hex nowMs username password).1.fails = m.fails) ∨
      (m.locked = false ∧ m.barred nowMs username = false ∧ m.verifies sha256Hex username password = false ∧
        (m.login sha256Hex nowMs username password).1 = m.rejectLogin nowMs username) ∨
      ∃ u, m.locked = false ∧ m.barred nowMs username = false ∧ m.findUser username = some u ∧
        verifyPassword sha256Hex u.password password = true ∧
        (m.login sha256Hex nowMs username password).1 = m.acceptLogin nowMs username u := by
  unfold login verifies
  cases locked : m.locked with
  | true => exact Or.inl ⟨Or.inl rfl, rfl, rfl⟩
  | false =>
    cases barred : m.barred nowMs username with
    | true => exact Or.inl ⟨Or.inr rfl, rfl, rfl⟩
    | false =>
      cases found : m.findUser username with
      | none => exact Or.inr (Or.inl ⟨rfl, rfl, rfl, rfl⟩)
      | some u =>
        cases verified : verifyPassword sha256Hex u.password password with
        | true => exact Or.inr (Or.inr ⟨u, rfl, rfl, rfl, verified, by simp [verified]⟩)
        | false => exact Or.inr (Or.inl ⟨rfl, rfl, verified, by simp [verified]⟩)

/-- The calls that open, close, lock and unlock a session. -/
def ofSession : AuthCall → Bool
  | .login .. | .logout | .lock | .unlock _ => true
  | _ => false

/-- Any other call leaves the session and the failed logins alone. -/
theorem frame_step (sha256Hex : ByteArray → String) (m : AuthManager) (e : AuthEvent)
    (other : ofSession e.call = false) :
    (step sha256Hex m e).1.fails = m.fails ∧ (step sha256Hex m e).1.session = m.session := by
  obtain ⟨nowMs, call⟩ := e
  cases call with
  | login | logout | lock | unlock => cases other
  | loadUsersFromJson file =>
    simp only [step, loadUsersFromJson]
    split <;> exact ⟨rfl, rfl⟩
  | checkPermission permPoint =>
    simp only [step, checkPermission]
    split <;> exact ⟨rfl, rfl⟩
  | auditRecord action detail granted => exact ⟨rfl, rfl⟩
  | clearAudit => exact ⟨rfl, rfl⟩
  | setMustChange username must =>
    simp only [step, setMustChange]
    split <;> exact ⟨rfl, rfl⟩
  | addUser username password role salt =>
    simp only [step, addUser]
    split
    · exact ⟨rfl, rfl⟩
    · split <;> exact ⟨rfl, rfl⟩
  | removeUser username =>
    simp only [step, removeUser]
    split
    · exact ⟨rfl, rfl⟩
    · split <;> exact ⟨rfl, rfl⟩
  | changePassword username newPassword salt =>
    simp only [step, changePassword]
    split
    · exact ⟨rfl, rfl⟩
    · split <;> exact ⟨rfl, rfl⟩
  | saveUsersToJson path opened =>
    simp only [step, saveUsersToJson]
    split <;> exact ⟨rfl, rfl⟩

/-- Only logins count. -/
theorem fails_other (sha256Hex : ByteArray → String) (m : AuthManager) (e : AuthEvent)
    (other : ∀ username password, e.call ≠ .login username password) :
    (step sha256Hex m e).1.fails = m.fails := by
  obtain ⟨nowMs, call⟩ := e
  cases call with
  | login username password => exact absurd rfl (other username password)
  | logout =>
    simp only [step, logout]
    split <;> rfl
  | lock =>
    simp only [step, lock]
    split <;> rfl
  | unlock password =>
    simp only [step, unlock]
    split
    · rfl
    · split <;> rfl
  | _ => exact (frame_step sha256Hex m _ rfl).1

theorem checkedLogin_eq_none (name : String) (other : ∀ username password, e.call ≠ .login username password) :
    checkedLogin sha256Hex name (m, e) = none := by
  unfold checkedLogin
  split
  · rename_i username password call
    exact absurd call (other username password)
  · rfl

/-- The record of a name changes with its own checked logins only. -/
theorem fails_step (sha256Hex : ByteArray → String) (m : AuthManager) (e : AuthEvent) (name : String) :
    (step sha256Hex m e).1.fails name =
      match checkedLogin sha256Hex name (m, e) with
      | none => m.fails name
      | some true => none
      | some false => some (countFail ((m.fails name).getD {}) e.nowMs) := by
  by_cases attempt : ∃ username password, e.call = .login username password
  · obtain ⟨username, password, call⟩ := attempt
    have same : step sha256Hex m e = m.login sha256Hex e.nowMs username password := by simp only [step, call]
    rw [same]
    simp only [checkedLogin, call]
    rcases login_cases (m := m) sha256Hex e.nowMs username password with
      ⟨unseen, -, fails⟩ | ⟨unlocked, free, wrong, rejected⟩ | ⟨u, unlocked, free, found, verified, accepted⟩
    · rw [fails, if_neg]
      rintro ⟨rfl, unlocked, free⟩
      rcases unseen with locked | barred
      · rw [unlocked] at locked
        cases locked
      · rw [free] at barred
        cases barred
    · rw [rejected, rejectLogin_fails]
      by_cases own : username = name
      · subst own
        rw [if_pos ⟨rfl, unlocked, free⟩, wrong, Function.update_self]
      · rw [if_neg (fun all => own all.1), Function.update_of_ne (Ne.symm own)]
    · have right : m.verifies sha256Hex username password = true := by
        rw [verifies, found]
        exact verified
      rw [accepted]
      change Function.update m.fails username none name = _
      by_cases own : username = name
      · subst own
        rw [if_pos ⟨rfl, unlocked, free⟩, right, Function.update_self]
      · rw [if_neg (fun all => own all.1), Function.update_of_ne (Ne.symm own)]
  · have other : ∀ username password, e.call ≠ .login username password :=
      fun username password call => attempt ⟨username, password, call⟩
    rw [checkedLogin_eq_none name other, fails_other sha256Hex m e other]

end Steps

section Windows
variable (name : String) (vs : List (AuthManager × AuthEvent))

/-- The results of the checked logins of a name. -/
def checks : List Bool := vs.filterMap (checkedLogin sha256Hex name)

/-- The failed logins of a name in a row, up to now. -/
def streak : Nat := ((checks sha256Hex name vs).reverse.takeWhile (fun passed => !passed)).length

/-- A visit at which every fifth failed login in a row of a name happens. -/
structure Fifth (pre : List (AuthManager × AuthEvent)) (v : AuthManager × AuthEvent) : Prop where
  within : pre ++ [v] <+: vs
  failed : checkedLogin sha256Hex name v = some false
  fifth : streak sha256Hex name (pre ++ [v]) % kMaxLoginFails = 0

/-- A time in the window after a fifth failed login in a row of a name. -/
def InWindow (t : Nat) : Prop :=
  ∃ pre v, Fifth sha256Hex name vs pre v ∧ v.2.nowMs ≤ t ∧ t < v.2.nowMs + kLockMs

/-- The record of a name against the history, up to a time. -/
structure Counted (m : AuthManager) (now : Nat) : Prop where
  count : ((m.fails name).getD {}).count = streak sha256Hex name vs % kMaxLoginFails
  bars : ∀ pre v, Fifth sha256Hex name vs pre v →
    v.2.nowMs + kLockMs ≤ now ∨ ∃ f, m.fails name = some f ∧ v.2.nowMs + kLockMs ≤ f.lockUntilMs
  barredBy : ∀ f, m.fails name = some f →
    f.lockUntilMs = 0 ∨ ∃ pre v, Fifth sha256Hex name vs pre v ∧ f.lockUntilMs = v.2.nowMs + kLockMs

variable {sha256Hex} {name} {vs} {v : AuthManager × AuthEvent}

theorem streak_concat : streak sha256Hex name (vs ++ [v]) =
    match checkedLogin sha256Hex name v with
    | none => streak sha256Hex name vs
    | some true => 0
    | some false => streak sha256Hex name vs + 1 := by
  unfold streak checks
  rw [List.filterMap_append]
  cases result : checkedLogin sha256Hex name v with
  | none => simp [result]
  | some passed => cases passed <;> simp [result]

theorem Fifth.concat {pre : List (AuthManager × AuthEvent)} {x : AuthManager × AuthEvent}
    (fifth : Fifth sha256Hex name vs pre v) : Fifth sha256Hex name (vs ++ [x]) pre v :=
  ⟨fifth.within.trans (List.prefix_append _ _), fifth.failed, fifth.fifth⟩

theorem fifth_concat_iff {pre : List (AuthManager × AuthEvent)} {x : AuthManager × AuthEvent} :
    Fifth sha256Hex name (vs ++ [x]) pre v ↔
      Fifth sha256Hex name vs pre v ∨ (pre = vs ∧ v = x ∧ checkedLogin sha256Hex name x = some false ∧
        streak sha256Hex name (vs ++ [x]) % kMaxLoginFails = 0) := by
  constructor
  · rintro ⟨within, failed, fifth⟩
    rcases List.prefix_concat_iff.mp within with last | earlier
    · obtain ⟨rfl, same⟩ := List.append_inj' last rfl
      obtain rfl := List.head_eq_of_cons_eq same
      exact Or.inr ⟨rfl, rfl, failed, fifth⟩
    · exact Or.inl ⟨earlier, failed, fifth⟩
  · rintro (earlier | ⟨rfl, rfl, failed, fifth⟩)
    · exact earlier.concat
    · exact ⟨List.prefix_refl _, failed, fifth⟩

theorem Counted.later {m : AuthManager} {now now' : Nat} (counted : Counted sha256Hex name vs m now)
    (le : now ≤ now') : Counted sha256Hex name vs m now' :=
  { counted with bars := fun pre v fifth => (counted.bars pre v fifth).imp_left (fun past => past.trans le) }

/-- A name is free only when the windows of its failed logins are over. -/
theorem Counted.over {m : AuthManager} {now : Nat} (counted : Counted sha256Hex name vs m now)
    (free : m.barred now name = false) {pre : List (AuthManager × AuthEvent)} (fifth : Fifth sha256Hex name vs pre v) :
    v.2.nowMs + kLockMs ≤ now := by
  rcases counted.bars pre v fifth with past | ⟨f, present, bound⟩
  · exact past
  · simp only [barred, present, decide_eq_false_iff_not, Nat.not_lt] at free
    exact bound.trans free

theorem checkedLogin_free {m : AuthManager} {e : AuthEvent} {passed : Bool}
    (checked : checkedLogin sha256Hex name (m, e) = some passed) : m.barred e.nowMs name = false := by
  unfold checkedLogin at checked
  split at checked
  · split at checked
    · rename_i all
      exact all.2.2
    · cases checked
  · cases checked

/-- Nothing but a failed login that fills a row of five is a new fifth one. -/
theorem Fifth.earlier {pre : List (AuthManager × AuthEvent)} {x : AuthManager × AuthEvent}
    (fifth : Fifth sha256Hex name (vs ++ [x]) pre v)
    (unfilled : checkedLogin sha256Hex name x = some false →
      streak sha256Hex name (vs ++ [x]) % kMaxLoginFails ≠ 0) : Fifth sha256Hex name vs pre v := by
  rcases fifth_concat_iff.mp fifth with earlier | ⟨-, -, failed, filled⟩
  · exact earlier
  · exact absurd filled (unfilled failed)

section Step
variable {m : AuthManager} {e : AuthEvent} (counted : Counted sha256Hex name vs m e.nowMs)
include counted

/-- A record that is kept goes on being barred by the fifth login that barred it. -/
theorem Counted.kept {f : FailRec} (present : m.fails name = some f) :
    f.lockUntilMs = 0 ∨
      ∃ pre v, Fifth sha256Hex name (vs ++ [(m, e)]) pre v ∧ f.lockUntilMs = v.2.nowMs + kLockMs := by
  apply (counted.barredBy f present).imp_right
  rintro ⟨pre, v, fifth, same⟩
  exact ⟨pre, v, fifth.concat, same⟩

theorem Counted.unchecked (checked : checkedLogin sha256Hex name (m, e) = none) :
    Counted sha256Hex name (vs ++ [(m, e)]) (AuthManager.step sha256Hex m e).1 e.nowMs := by
  have fails := fails_step sha256Hex m e name
  have length : streak sha256Hex name (vs ++ [(m, e)]) = _ := streak_concat
  rw [checked] at fails length
  refine ⟨?_, fun pre v fifth => ?_, fun f present => ?_⟩
  · rw [fails, length]
    exact counted.count
  · rw [fails]
    exact counted.bars pre v (fifth.earlier fun failed => by rw [checked] at failed; cases failed)
  · rw [fails] at present
    exact counted.kept present

theorem Counted.passed (checked : checkedLogin sha256Hex name (m, e) = some true) :
    Counted sha256Hex name (vs ++ [(m, e)]) (AuthManager.step sha256Hex m e).1 e.nowMs := by
  have fails := fails_step sha256Hex m e name
  have length : streak sha256Hex name (vs ++ [(m, e)]) = _ := streak_concat
  rw [checked] at fails length
  refine ⟨?_, fun pre v fifth => Or.inl ?_, fun f present => ?_⟩
  · rw [fails, length]
    rfl
  · have earlier := fifth.earlier fun failed => by rw [checked] at failed; cases failed
    exact counted.over (checkedLogin_free checked) earlier
  · rw [fails] at present
    cases present

/-- The fifth failed login in a row bars the name from now on. -/
theorem Counted.filled (checked : checkedLogin sha256Hex name (m, e) = some false)
    (full : kMaxLoginFails ≤ ((m.fails name).getD {}).count + 1) :
    Counted sha256Hex name (vs ++ [(m, e)]) (AuthManager.step sha256Hex m e).1 e.nowMs := by
  have fails := fails_step sha256Hex m e name
  have length : streak sha256Hex name (vs ++ [(m, e)]) = _ := streak_concat
  have next : countFail ((m.fails name).getD {}) e.nowMs = { count := 0, lockUntilMs := e.nowMs + kLockMs } :=
    if_pos full
  rw [checked] at fails length
  simp only [next] at fails length
  have turn : streak sha256Hex name (vs ++ [(m, e)]) % kMaxLoginFails = 0 := by
    have count := counted.count
    rw [length]
    simp only [kMaxLoginFails] at *
    omega
  refine ⟨?_, fun pre v fifth => ?_, fun f present => ?_⟩
  · rw [fails, turn]
    rfl
  · rcases fifth_concat_iff.mp fifth with earlier | ⟨-, rfl, -, -⟩
    · exact Or.inl (counted.over (checkedLogin_free checked) earlier)
    · exact Or.inr ⟨_, fails, le_rfl⟩
  · rw [fails] at present
    obtain rfl := Option.some.inj present
    exact Or.inr ⟨vs, (m, e), ⟨List.prefix_refl _, checked, turn⟩, rfl⟩

/-- Any other failed login is counted. -/
theorem Counted.failed (checked : checkedLogin sha256Hex name (m, e) = some false)
    (room : ¬kMaxLoginFails ≤ ((m.fails name).getD {}).count + 1) :
    Counted sha256Hex name (vs ++ [(m, e)]) (AuthManager.step sha256Hex m e).1 e.nowMs := by
  have fails := fails_step sha256Hex m e name
  have length : streak sha256Hex name (vs ++ [(m, e)]) = _ := streak_concat
  have next : countFail ((m.fails name).getD {}) e.nowMs =
      { (m.fails name).getD {} with count := ((m.fails name).getD {}).count + 1 } := if_neg room
  rw [checked] at fails length
  simp only [next] at fails length
  have more : (streak sha256Hex name vs + 1) % kMaxLoginFails =
      streak sha256Hex name vs % kMaxLoginFails + 1 := by
    have count := counted.count
    simp only [kMaxLoginFails] at *
    omega
  refine ⟨?_, fun pre v fifth => Or.inl ?_, fun f present => ?_⟩
  · rw [fails, length, more, ← counted.count]
    rfl
  · have earlier := fifth.earlier fun _ => by rw [length, more]; exact Nat.succ_ne_zero _
    exact counted.over (checkedLogin_free checked) earlier
  · rw [fails] at present
    obtain rfl := Option.some.inj present
    cases before : m.fails name with
    | none => exact Or.inl rfl
    | some g =>
      have still := counted.kept before
      exact still

theorem Counted.step :
    Counted sha256Hex name (vs ++ [(m, e)]) (AuthManager.step sha256Hex m e).1 e.nowMs := by
  cases checked : checkedLogin sha256Hex name (m, e) with
  | none => exact counted.unchecked checked
  | some passed =>
    cases passed with
    | true => exact counted.passed checked
    | false =>
      by_cases full : kMaxLoginFails ≤ ((m.fails name).getD {}).count + 1
      · exact counted.filled checked full
      · exact counted.failed checked full

end Step

/-- The events before the last one are not later. -/
theorem ordered_concat {es : List AuthEvent} {e : AuthEvent}
    (ordered : (es ++ [e]).Pairwise (fun e f => e.nowMs ≤ f.nowMs)) :
    es.Pairwise (fun e f => e.nowMs ≤ f.nowMs) ∧ ∀ f ∈ es, f.nowMs ≤ e.nowMs := by
  obtain ⟨past, -, order⟩ := List.pairwise_append.mp ordered
  exact ⟨past, fun f member => order f member e (List.mem_singleton.mpr rfl)⟩

theorem counted_run {es : List AuthEvent} (ordered : es.Pairwise (fun e f => e.nowMs ≤ f.nowMs)) {now : Nat}
    (latest : ∀ e ∈ es, e.nowMs ≤ now) :
    Counted sha256Hex name (visits (AuthManager.step sha256Hex) {} es) (run (AuthManager.step sha256Hex) {} es)
      now := by
  induction es using List.reverseRecOn generalizing now with
  | nil =>
    refine ⟨rfl, fun pre v fifth => ?_, fun f present => by cases present⟩
    exact absurd (List.prefix_nil.mp fifth.within) (by simp)
  | append_singleton es e ih =>
    obtain ⟨past, earlier⟩ := ordered_concat ordered
    rw [visits_concat, run_concat]
    exact (ih past earlier).step.later (latest e (List.mem_append_right _ (List.mem_singleton.mpr rfl)))

/-- A name is barred in the windows after every fifth failed login in a row of its own, and at no other time. -/
theorem barred_iff {es : List AuthEvent} (ordered : es.Pairwise (fun e f => e.nowMs ≤ f.nowMs)) {now : Nat}
    (latest : ∀ e ∈ es, e.nowMs ≤ now) (name : String) :
    (run (AuthManager.step sha256Hex) {} es).barred now name = true ↔
      InWindow sha256Hex name (visits (AuthManager.step sha256Hex) {} es) now := by
  have counted : Counted sha256Hex name _ _ now := counted_run ordered latest
  constructor
  · intro barred
    cases present : (run (AuthManager.step sha256Hex) {} es).fails name with
    | none => simp only [AuthManager.barred, present, Bool.false_eq_true] at barred
    | some f =>
      simp only [AuthManager.barred, present, decide_eq_true_eq] at barred
      rcases counted.barredBy f present with never | ⟨pre, v, fifth, same⟩
      · omega
      · have visited : v ∈ visits (AuthManager.step sha256Hex) {} es :=
          fifth.within.subset (List.mem_append_right _ (List.mem_singleton.mpr rfl))
        have member : v.2 ∈ es := by
          rw [← visits_map_snd (AuthManager.step sha256Hex) {} es]
          exact List.mem_map_of_mem visited
        exact ⟨pre, v, fifth, latest v.2 member, same ▸ barred⟩
  · rintro ⟨pre, v, fifth, -, inside⟩
    rcases counted.bars pre v fifth with past | ⟨f, present, bound⟩
    · exact absurd past (Nat.not_le.mpr inside)
    · simp only [AuthManager.barred, present, decide_eq_true_eq]
      exact inside.trans_le bound

end Windows

section Sessions

/-- A user's session that a login opened and no logout has closed. -/
structure OpenedBy (sha256Hex : ByteArray → String) (before : List AuthEvent) (opening : AuthEvent)
    (between : List AuthEvent) (user : String) (role : UserRole) : Prop where
  accepted : ∃ password u, opening.call = .login user password ∧
    .returned true ∈ (step sha256Hex (run (step sha256Hex) {} before) opening).2 ∧
    (run (step sha256Hex) {} before).findUser user = some u ∧
    verifyPassword sha256Hex u.password password = true ∧ u.role = role
  free : ¬InWindow sha256Hex user (visits (step sha256Hex) {} before) opening.nowMs
  open_ : ∀ e ∈ between, e.call ≠ .logout

/-- Every lock since has been followed by an unlock with a password of the user's record. -/
def Unlocked (sha256Hex : ByteArray → String) (before : List AuthEvent) (opening : AuthEvent)
    (between : List AuthEvent) (user : String) : Prop :=
  ∀ earlier lock later, between = earlier ++ lock :: later → lock.call = .lock →
    ∃ locked unlock rest password, later = locked ++ unlock :: rest ∧ unlock.call = .unlock password ∧
      (run (step sha256Hex) {} (before ++ opening :: earlier ++ lock :: locked)).verifies sha256Hex user password = true

variable {sha256Hex} {m : AuthManager} {e : AuthEvent}

/-- What a call does to the session. -/
theorem session_step (sha256Hex : ByteArray → String) (m : AuthManager) (e : AuthEvent) :
    (∃ user password u, e.call = .login user password ∧ .returned true ∈ (step sha256Hex m e).2 ∧
        m.barred e.nowMs user = false ∧ m.findUser user = some u ∧ verifyPassword sha256Hex u.password password = true ∧
        (step sha256Hex m e).1.session = ⟨user, u.role, true, false⟩) ∨
      (e.call = .logout ∧ (step sha256Hex m e).1.session = ⟨"", .operator, false, false⟩) ∨
      (e.call = .lock ∧ (step sha256Hex m e).1.session = { m.session with locked := m.loggedIn || m.locked }) ∨
      (∃ password, e.call = .unlock password ∧ m.verifies sha256Hex m.currentUser password = true ∧
        (step sha256Hex m e).1.session = { m.session with locked := false }) ∨
      (e.call ≠ .logout ∧ e.call ≠ .lock ∧ (step sha256Hex m e).1.session = m.session) := by
  obtain ⟨nowMs, call⟩ := e
  cases call with
  | login username password =>
    have same : step sha256Hex m ⟨nowMs, .login username password⟩ = m.login sha256Hex nowMs username password := rfl
    rw [same]
    rcases login_cases (m := m) sha256Hex nowMs username password with
      ⟨-, session, -⟩ | ⟨-, -, -, rejected⟩ | ⟨u, unlocked, free, found, verified, accepted⟩
    · exact Or.inr (Or.inr (Or.inr (Or.inr ⟨nofun, nofun, session⟩)))
    · rw [rejected, rejectLogin_session]
      exact Or.inr (Or.inr (Or.inr (Or.inr ⟨nofun, nofun, rfl⟩)))
    · have answer : .returned true ∈ (m.login sha256Hex nowMs username password).2 := by
        simp [login, unlocked, free, found, verified]
      rw [accepted]
      exact Or.inl ⟨username, password, u, rfl, answer, free, found, verified, rfl⟩
  | logout =>
    refine Or.inr (Or.inl ⟨rfl, ?_⟩)
    simp only [step, logout]
    split <;> rfl
  | lock =>
    refine Or.inr (Or.inr (Or.inl ⟨rfl, ?_⟩))
    simp only [step, lock]
    cases open_ : m.loggedIn <;> simp [session, open_]
  | unlock password =>
    simp only [step, unlock]
    split
    · exact Or.inr (Or.inr (Or.inr (Or.inr ⟨nofun, nofun, rfl⟩)))
    · split
      · rename_i verified
        exact Or.inr (Or.inr (Or.inr (Or.inl ⟨password, rfl, verified, rfl⟩)))
      · exact Or.inr (Or.inr (Or.inr (Or.inr ⟨nofun, nofun, rfl⟩)))
  | _ => exact Or.inr (Or.inr (Or.inr (Or.inr ⟨nofun, nofun, (frame_step sha256Hex m _ rfl).2⟩)))

theorem OpenedBy.concat {before between : List AuthEvent} {opening : AuthEvent} {user : String} {role : UserRole}
    (opened : OpenedBy sha256Hex before opening between user role) (stays : e.call ≠ .logout) :
    OpenedBy sha256Hex before opening (between ++ [e]) user role where
  accepted := opened.accepted
  free := opened.free
  open_ f member := by
    rcases List.mem_append.mp member with earlier | last
    · exact opened.open_ f earlier
    · rw [List.mem_singleton.mp last]
      exact stays

theorem Unlocked.concat {before between : List AuthEvent} {opening : AuthEvent} {user : String}
    (unlocked : Unlocked sha256Hex before opening between user) (stays : e.call ≠ .lock) :
    Unlocked sha256Hex before opening (between ++ [e]) user := by
  intro earlier lock later split isLock
  rcases List.eq_nil_or_concat later with rfl | ⟨later, last, rfl⟩
  · obtain ⟨-, same⟩ := List.append_inj' split rfl
    rw [List.head_eq_of_cons_eq same] at stays
    exact absurd isLock stays
  · rw [List.concat_eq_append, ← List.cons_append, ← List.append_assoc] at split
    obtain ⟨parts, same⟩ := List.append_inj' split rfl
    obtain ⟨locked, unlock, rest, password, rfl, call, verified⟩ := unlocked earlier lock later parts isLock
    refine ⟨locked, unlock, rest ++ [last], password, ?_, call, verified⟩
    rw [List.concat_eq_append, List.append_assoc, List.cons_append]

/-- An unlock with a password of the user's record answers every lock before it. -/
theorem unlocked_of_unlock {before between : List AuthEvent} {opening : AuthEvent} {user password : String}
    (call : e.call = .unlock password)
    (verified : (run (step sha256Hex) {} (before ++ opening :: between)).verifies sha256Hex user password = true) :
    Unlocked sha256Hex before opening (between ++ [e]) user := by
  intro earlier lock later split isLock
  rcases List.eq_nil_or_concat later with rfl | ⟨later, last, rfl⟩
  · obtain ⟨-, same⟩ := List.append_inj' split rfl
    rw [← List.head_eq_of_cons_eq same, call] at isLock
    cases isLock
  · rw [List.concat_eq_append, ← List.cons_append, ← List.append_assoc] at split
    obtain ⟨rfl, same⟩ := List.append_inj' split rfl
    obtain rfl := List.head_eq_of_cons_eq same
    refine ⟨later, e, [], password, List.concat_eq_append .., call, ?_⟩
    rw [List.append_assoc, List.cons_append]
    exact verified

/-- An open session was opened by a login of its user, and an unlocked one has been unlocked after every lock. -/
theorem session_run {es : List AuthEvent} (ordered : es.Pairwise (fun e f => e.nowMs ≤ f.nowMs))
    (open_ : (run (step sha256Hex) {} es).loggedIn = true) :
    ∃ before opening between, es = before ++ opening :: between ∧
      OpenedBy sha256Hex before opening between (run (step sha256Hex) {} es).currentUser
        (run (step sha256Hex) {} es).currentRole ∧
      ((run (step sha256Hex) {} es).locked = false →
        Unlocked sha256Hex before opening between (run (step sha256Hex) {} es).currentUser) := by
  induction es using List.reverseRecOn with
  | nil => cases open_
  | append_singleton es e ih =>
    obtain ⟨past, latest⟩ := ordered_concat ordered
    rw [run_concat] at open_ ⊢
    rcases session_step sha256Hex (run (step sha256Hex) {} es) e with
      ⟨user, password, u, call, answer, free, found, verified, session⟩ | ⟨-, session⟩ | ⟨call, session⟩ |
        ⟨password, call, verified, session⟩ | ⟨noLogout, noLock, session⟩
    · have current : (step sha256Hex (run (step sha256Hex) {} es) e).1.currentUser = user :=
        congrArg Session.user session
      have role : (step sha256Hex (run (step sha256Hex) {} es) e).1.currentRole = u.role :=
        congrArg Session.role session
      rw [current, role]
      refine ⟨es, e, [], rfl, ⟨⟨password, u, call, answer, found, verified, rfl⟩, ?_, ?_⟩, ?_⟩
      · rw [← barred_iff past latest, free]
        exact Bool.false_ne_true
      · exact fun f member => absurd member List.not_mem_nil
      · intro _ earlier lock later split
        cases earlier <;> cases split
    · have closed : (step sha256Hex (run (step sha256Hex) {} es) e).1.loggedIn = false :=
        congrArg Session.loggedIn session
      rw [closed] at open_
      cases open_
    all_goals
      have current : (step sha256Hex (run (step sha256Hex) {} es) e).1.currentUser = _ := congrArg Session.user session
      have role : (step sha256Hex (run (step sha256Hex) {} es) e).1.currentRole = _ := congrArg Session.role session
      have login : (step sha256Hex (run (step sha256Hex) {} es) e).1.loggedIn = _ := congrArg Session.loggedIn session
      have screen : (step sha256Hex (run (step sha256Hex) {} es) e).1.locked = _ := congrArg Session.locked session
      rw [login] at open_
      rw [current, role, screen]
      obtain ⟨before, opening, between, split, opened, unlocked⟩ := ih past open_
      refine ⟨before, opening, between ++ [e], by rw [split, List.append_assoc, List.cons_append], ?_⟩
    · refine ⟨opened.concat (by rw [call]; exact nofun), fun free => ?_⟩
      have logged : (run (step sha256Hex) {} es).loggedIn = true := open_
      rw [logged] at free
      cases free
    · refine ⟨opened.concat (by rw [call]; exact nofun), fun _ => unlocked_of_unlock call ?_⟩
      rw [← split]
      exact verified
    · exact ⟨opened.concat noLogout, fun free => (unlocked free).concat noLock⟩

/-- What a granted permission rests on: an open session that a login of its user has opened, outside the
windows of the failed logins of that name, unlocked after every lock, with a role that has the permission. -/
structure Authenticated (sha256Hex : ByteArray → String) (es : List AuthEvent) (permPoint : String) : Prop where
  opened : ∃ before opening between, es = before ++ opening :: between ∧
    OpenedBy sha256Hex before opening between (run (step sha256Hex) {} es).currentUser
      (run (step sha256Hex) {} es).currentRole ∧
    Unlocked sha256Hex before opening between (run (step sha256Hex) {} es).currentUser
  allowed : roleHasPermission (run (step sha256Hex) {} es).currentRole permPoint = true

/-- A permission is granted to an authenticated session only, and a name is barred by failed logins of its
own only. -/
theorem session_safe {es : List AuthEvent} (ordered : es.Pairwise (fun e f => e.nowMs ≤ f.nowMs)) {now : Nat}
    (latest : ∀ e ∈ es, e.nowMs ≤ now) :
    (∀ permPoint, .returned true ∈ (step sha256Hex (run (step sha256Hex) {} es) ⟨now, .checkPermission permPoint⟩).2 →
      Authenticated sha256Hex es permPoint) ∧
    ∀ name, (run (step sha256Hex) {} es).barred now name = true ↔
      InWindow sha256Hex name (visits (step sha256Hex) {} es) now := by
  refine ⟨fun permPoint granted => ?_, barred_iff ordered latest⟩
  have permitted : (run (step sha256Hex) {} es).permitted permPoint = true := by
    by_contra refused
    simp only [step, checkPermission, if_neg refused, List.mem_singleton, AuthReply.returned.injEq,
      Bool.true_eq_false] at granted
  simp only [AuthManager.permitted, Bool.and_eq_true, Bool.not_eq_true'] at permitted
  obtain ⟨⟨open_, free⟩, allowed⟩ := permitted
  obtain ⟨before, opening, between, split, opened, unlocked⟩ := session_run ordered open_
  exact ⟨⟨before, opening, between, split, opened, unlocked free⟩, allowed⟩

/-- An engineer with a plain password logs in, locks the screen and unlocks it. -/
def shift : List AuthEvent :=
  [⟨0, .loadUsersFromJson (some [⟨some "eng", some "volt", some " Engineer", none⟩])⟩,
    ⟨1000, .login "eng" "volt"⟩, ⟨2000, .lock⟩, ⟨3000, .unlock "volt"⟩]

theorem session_safe_shift : Authenticated (fun _ => "") shift "sbo.select" :=
  (session_safe (show shift.Pairwise (fun e f => e.nowMs ≤ f.nowMs) by decide)
    (show ∀ e ∈ shift, e.nowMs ≤ 4000 by decide)).1 "sbo.select" (by decide +kernel)

end Sessions

end AuthManager
end EnerSentry.Business
