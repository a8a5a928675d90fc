import Mathlib.Data.List.Basic
import Mathlib.Logic.Function.Basic
import EnerSentry.Lib.Runs

/-!
The login of the operator station: users and their stored passwords, one session with a
screen lock, a table of failed logins by user name, the permissions of the three roles and
an audit log. The clock is read once in a call and is part of its event, and so is the
random salt of a new password. The hash is a parameter.
-/

namespace EnerSentry.Business
open EnerSentry.Lib

inductive UserRole where
  | operator | engineer | admin
  deriving DecidableEq, Repr

structure AuditEntry where
  tsMs : Nat
  user : String
  action : String
  detail : String
  granted : Bool
  deriving DecidableEq, Repr

structure UserRec where
  username : String
  password : String
  role : UserRole := .operator
  mustChange : Bool := false
  deriving DecidableEq, Repr

structure FailRec where
  count : Nat := 0
  lockUntilMs : Nat := 0
  deriving DecidableEq, Repr

/-- A user's object in the file of users; a value that is missing or of another type is `none`. -/
structure UserObject where
  username : Option String
  password : Option String
  role : Option String
  mustChange : Option Bool
  deriving DecidableEq, Repr

structure AuthManager where
  users : List UserRec := []
  currentUser : String := ""
  currentRole : UserRole := .operator
  loggedIn : Bool := false
  locked : Bool := false
  fails : String → Option FailRec := fun _ => none
  audit : List AuditEntry := []

inductive AuthCall where
  | loadUsersFromJson (file : Option (List UserObject))
  | login (username password : String)
  | logout
  | lock
  | unlock (password : String)
  | checkPermission (permPoint : String)
  | auditRecord (action detail : String) (granted : Bool)
  | clearAudit
  | setMustChange (username : String) (must : Bool)
  | addUser (username password : String) (role : UserRole) (salt : String)
  | removeUser (username : String)
  | changePassword (username newPassword salt : String)
  | saveUsersToJson (path : String) (opened : Bool)
  deriving DecidableEq, Repr

/-- A call and the wall clock at it. -/
structure AuthEvent where
  nowMs : Nat
  call : AuthCall
  deriving DecidableEq, Repr

/-- What a call returns, writes or signals. -/
inductive AuthReply where
  | returned (result : Bool)
  | written (file : List UserObject)
  | loginChanged (user : String) (role : UserRole)
  | loggedOut
  | lockedChanged (locked : Bool)
  deriving DecidableEq, Repr

namespace AuthManager

def kAuditCap : Nat := 1000

def kMaxLoginFails : Nat := 5

def kLockMs : Nat := 15 * 60 * 1000

def kAuthManage : String := "auth.manage"

def kSystemExit : String := "system.exit"

section Text

/-- The characters that trimming removes. -/
def isSpace (c : Char) : Bool :=
  c.toNat = 0x20 || (0x09 ≤ c.toNat && c.toNat ≤ 0x0D) || c.toNat = 0x85 || c.toNat = 0xA0 || c.toNat = 0x1680 ||
    (0x2000 ≤ c.toNat && c.toNat ≤ 0x200A) || c.toNat = 0x2028 || c.toNat = 0x2029 || c.toNat = 0x202F ||
    c.toNat = 0x205F || c.toNat = 0x3000

def trimmed (s : List Char) : List Char :=
  ((s.dropWhile isSpace).reverse.dropWhile isSpace).reverse

/-- Lower case; no letter outside ASCII becomes one of the letters that are compared. -/
def roleFromString (s : String) : UserRole :=
  let low := (trimmed s.toList).map Char.toLower
  if low = "admin".toList then .admin
  else if low = "engineer".toList then .engineer
  else .operator

def roleToString : UserRole → String
  | .admin => "Admin"
  | .engineer => "Engineer"
  | .operator => "Operator"

end Text

def kDefaultUsers : List (String × String × String) :=
  [("admin", "sha256$ens-salt-v1$21888813a45eed2911e66baa92ca2cc6269ce425b8d3ff2b303ce139a03283e1", "Admin"),
    ("operator", "sha256$ens-salt-v1$0acfaa9f0eac4258061f2521fabb91108bb97f07271d4acc2d256e16d4d03a3b", "Operator")]

/-- A permission that the matrix gives to a role. -/
def roleHasPermission (role : UserRole) (permPoint : String) : Bool :=
  match role with
  | .admin => true
  | .engineer => permPoint != kAuthManage
  | .operator =>
      permPoint == kSystemExit || permPoint == "history.view" || permPoint == "diag.view" ||
        permPoint == "trend.view" || permPoint == "alarm.view" || permPoint == "overview.view"

section Passwords
variable (sha256Hex : ByteArray → String)

/-- A stored password is a salted hash, or plain in files of the first version. -/
def verifyPassword (stored password : String) : Bool :=
  if "sha256$".toList.isPrefixOf stored.toList then
    match stored.toList.splitOn '$' with
    | [_, salt, expect] => sha256Hex ((String.ofList salt).toUTF8 ++ password.toUTF8) == String.ofList expect
    | _ => false
  else stored == password

def hashPasswordWithSalt (password salt : String) : String :=
  "sha256$" ++ salt ++ "$" ++ sha256Hex (salt.toUTF8 ++ password.toUTF8)

end Passwords

section Calls
variable (sha256Hex : ByteArray → String) (m : AuthManager) (nowMs : Nat)

def findUser (username : String) : Option UserRec := m.users.find? (fun u => u.username == username)

/-- The first user of a name changed. -/
def updateUser (username : String) (change : UserRec → UserRec) : AuthManager :=
  { m with users := m.users.modify (m.users.findIdx (fun u => u.username == username)) change }

/-- An entry more, and the oldest one gone when there are too many. -/
def appendAudit (user action detail : String) (granted : Bool) : AuthManager :=
  let audit := m.audit ++ [⟨nowMs, user, action, detail, granted⟩]
  { m with audit := if kAuditCap < audit.length then audit.tail else audit }

/-- A user of the file; one without a name or without a password is left out. -/
def userOf (o : UserObject) : Option UserRec :=
  let rec_ : UserRec :=
    { username := o.username.getD "", password := o.password.getD "", role := roleFromString (o.role.getD "")
      mustChange := o.mustChange.getD false }
  if rec_.username.isEmpty || rec_.password.isEmpty then none else some rec_

/-- `none` stands for a file that is missing or cannot be read. -/
def loadUsersFromJson (file : Option (List UserObject)) : AuthManager × Bool :=
  let users := (file.getD []).filterMap userOf
  if users.isEmpty then
    ({ m with users := kDefaultUsers.map (fun d => ⟨d.1, d.2.1, roleFromString d.2.2, false⟩) }, false)
  else ({ m with users := users }, true)

/-- Whether failed logins bar a user name. -/
def barred (username : String) : Bool :=
  match m.fails username with
  | some f => nowMs < f.lockUntilMs
  | none => false

/-- Whether a password is that of the record of a user. -/
def verifies (username password : String) : Bool :=
  match m.findUser username with
  | some u => verifyPassword sha256Hex u.password password
  | none => false

/-- One more failed login of a name; the fifth one bars it. -/
def rejectLogin (username : String) : AuthManager :=
  let f := (m.fails username).getD {}
  if kMaxLoginFails ≤ f.count + 1 then
    let f : FailRec := { count := 0, lockUntilMs := nowMs + kLockMs }
    { m with fails := Function.update m.fails username (some f) }.appendAudit nowMs username "login" "locked-5x" false
  else
    let f : FailRec := { f with count := f.count + 1 }
    { m with fails := Function.update m.fails username (some f) }.appendAudit nowMs username "login" "rejected" false

def acceptLogin (username : String) (u : UserRec) : AuthManager :=
  { m with
    fails := Function.update m.fails username none
    currentUser := username
    currentRole := u.role
    loggedIn := true
    locked := false }.appendAudit nowMs username "login" "ok" true

def login (username password : String) : AuthManager × List AuthReply :=
  if m.locked then (m, [.returned false])
  else if m.barred nowMs username then
    (m.appendAudit nowMs username "login" "locked" false, [.returned false])
  else
    match m.findUser username with
    | none => (m.rejectLogin nowMs username, [.returned false])
    | some u =>
        if verifyPassword sha256Hex u.password password then
          (m.acceptLogin nowMs username u, [.loginChanged username u.role, .returned true])
        else (m.rejectLogin nowMs username, [.returned false])

def logout : AuthManager × List AuthReply :=
  let m := if m.loggedIn then m.appendAudit nowMs m.currentUser "logout" "" true else m
  ({ m with loggedIn := false, locked := false, currentUser := "", currentRole := .operator }, [.loggedOut])

def lock : AuthManager × List AuthReply :=
  if !m.loggedIn then (m, [])
  else ({ m with locked := true }.appendAudit nowMs m.currentUser "lock" "" true, [.lockedChanged true])

def unlock (password : String) : AuthManager × List AuthReply :=
  if !m.loggedIn || !m.locked then (m, [.returned false])
  else if m.verifies sha256Hex m.currentUser password then
    ({ m with locked := false }.appendAudit nowMs m.currentUser "unlock" "" true,
      [.lockedChanged false, .returned true])
  else (m.appendAudit nowMs m.currentUser "unlock" "rejected" false, [.returned false])

def permitted (permPoint : String) : Bool := m.loggedIn && !m.locked && roleHasPermission m.currentRole permPoint

def checkPermission (permPoint : String) : AuthManager × List AuthReply :=
  if m.permitted permPoint then (m, [.returned true])
  else (m.appendAudit nowMs m.currentUser ("perm:" ++ permPoint) "denied" false, [.returned false])

def setMustChange (username : String) (must : Bool) : AuthManager × Bool :=
  match m.findUser username with
  | none => (m, false)
  | some _ =>
      let m := m.updateUser username ({ · with mustChange := must })
      (m.appendAudit nowMs "admin" "user.mustchange" username true, true)

def requiresPasswordChange : Bool :=
  m.loggedIn && match m.findUser m.currentUser with
    | some u => u.mustChange
    | none => false

def addUser (username password : String) (role : UserRole) (salt : String) : AuthManager × Bool :=
  if username.isEmpty || password.isEmpty then (m, false)
  else
    match m.findUser username with
    | some _ => (m, false)
    | none =>
        let u : UserRec :=
          { username := username, password := hashPasswordWithSalt sha256Hex password salt, role := role }
        let m := { m with users := m.users ++ [u] }
        (m.appendAudit nowMs "admin" "user.add" username true, true)

def removeUser (username : String) : AuthManager × Bool :=
  if username = m.currentUser then (m, false)
  else
    match m.findUser username with
    | none => (m, false)
    | some _ =>
        let m := { m with users := m.users.eraseP (fun u => u.username == username) }
        (m.appendAudit nowMs "admin" "user.remove" username true, true)

def changePassword (username newPassword salt : String) : AuthManager × Bool :=
  if newPassword.isEmpty then (m, false)
  else
    match m.findUser username with
    | none => (m, false)
    | some _ =>
        let m := m.updateUser username
          ({ · with password := hashPasswordWithSalt sha256Hex newPassword salt, mustChange := false })
        (m.appendAudit nowMs username "user.chpwd" "" true, true)

def objectOf (u : UserRec) : UserObject where
  username := some u.username
  password := some u.password
  role := some (roleToString u.role)
  mustChange := some u.mustChange

/-- `opened` says whether the file can be written. -/
def saveUsersToJson (path : String) (opened : Bool) : AuthManager × List AuthReply :=
  if !opened then (m, [.returned false])
  else (m.appendAudit nowMs "admin" "user.save" path true, [.written (m.users.map objectOf), .returned true])

end Calls

def step (sha256Hex : ByteArray → String) : Runs.Step AuthManager AuthEvent AuthReply := fun m e =>
  let answer (result : AuthManager × Bool) : AuthManager × List AuthReply := (result.1, [.returned result.2])
  match e.call with
  | .loadUsersFromJson file => answer (m.loadUsersFromJson file)
  | .login username password => m.login sha256Hex e.nowMs username password
  | .logout => m.logout e.nowMs
  | .lock => m.lock e.nowMs
  | .unlock password => m.unlock sha256Hex e.nowMs password
  | .checkPermission permPoint => m.checkPermission e.nowMs permPoint
  | .auditRecord action detail granted => (m.appendAudit e.nowMs m.currentUser action detail granted, [])
  | .clearAudit => ({ m with audit := [] }, [])
  | .setMustChange username must => answer (m.setMustChange e.nowMs username must)
  | .addUser username password role salt => answer (m.addUser sha256Hex e.nowMs username password role salt)
  | .removeUser username => answer (m.removeUser e.nowMs username)
  | .changePassword username newPassword salt => answer (m.changePassword sha256Hex e.nowMs username newPassword salt)
  | .saveUsersToJson path opened => m.saveUsersToJson e.nowMs path opened

end AuthManager
end EnerSentry.Business
