import EnerSentry.Business.AuthManager
import EnerSentry.Sim.Json

/-!
The table of users on disk. Saving turns the users into a document and the library turns that
into a file; loading goes the other way. The library is a parameter, of which only a plain
document is expected to come back.
-/

namespace EnerSentry.Business
open EnerSentry.Lib EnerSentry.Sim

variable {K : Type}

/-- A document of truth values and strings, with the keys of its objects in order. -/
inductive Plain : Json K → Prop where
  | boolean (b : Bool) : Plain (.boolean b)
  | string (s : String) : Plain (.string s)
  | array (elements : List (Json K)) (each : ∀ j ∈ elements, Plain j) : Plain (.array elements)
  | object (members : List (String × Json K)) (ordered : (members.map (·.1)).Pairwise (· < ·))
      (each : ∀ f ∈ members, Plain f.2) : Plain (.object members)

/-- The library's two directions; text that is no document reads as `none`. -/
structure JsonLibrary (K File : Type) where
  toJson : Json K → File
  fromJson : File → Option (Json K)

/-- What it documents: a plain document that is written and read again is the same. -/
def JsonLibrary.RoundTrips {File : Type} (library : JsonLibrary K File) : Prop :=
  ∀ document, Plain document → library.fromJson (library.toJson document) = some document

namespace UserObject

def members (o : UserObject) : List (String × Json K) :=
  (o.mustChange.map fun b => ("mustChange", .boolean b)).toList ++
    (o.password.map fun s => ("password", .string s)).toList ++
    (o.role.map fun s => ("role", .string s)).toList ++
    (o.username.map fun s => ("username", .string s)).toList

def document (o : UserObject) : Json K := .object o.members

def stringOf : Option (Json K) → Option String
  | some (.string s) => some s
  | _ => none

def boolOf : Option (Json K) → Option Bool
  | some (.boolean b) => some b
  | _ => none

def read (j : Json K) : UserObject where
  username := stringOf (j.member "username")
  password := stringOf (j.member "password")
  role := stringOf (j.member "role")
  mustChange := boolOf (j.member "mustChange")

end UserObject

namespace AuthManager

/-- The root object that is written. -/
def documentOf (objects : List UserObject) : Json K := .object [("users", .array (objects.map UserObject.document))]

/-- The objects of users in what was read; `none` where that is no object. -/
def objectsIn : Option (Json K) → Option (List UserObject)
  | some (.object members) =>
      match (Json.object members).member "users" with
      | some (.array elements) => some (elements.map UserObject.read)
      | _ => some []
  | _ => none

section Objects
variable {u : UserRec}

theorem roleFromString_roleToString (role : UserRole) : roleFromString (roleToString role) = role := by
  cases role
  all_goals decide +kernel

/-- A user that has a name and a password comes back from its object. -/
theorem userOf_objectOf (named : u.username ≠ "") (keyed : u.password ≠ "") : userOf (objectOf u) = some u := by
  have name : u.username.isEmpty = false := Bool.eq_false_iff.mpr (mt String.isEmpty_iff.mp named)
  have password : u.password.isEmpty = false := Bool.eq_false_iff.mpr (mt String.isEmpty_iff.mp keyed)
  simp only [userOf, objectOf, Option.getD_some, roleFromString_roleToString, name, password, Bool.or_self]
  rfl

theorem filterMap_userOf {users : List UserRec} (filled : ∀ u ∈ users, u.username ≠ "" ∧ u.password ≠ "") :
    (users.map objectOf).filterMap userOf = users := by
  induction users with
  | nil => rfl
  | cons u users ih =>
    rw [List.forall_mem_cons] at filled
    rw [List.map_cons, List.filterMap_cons, userOf_objectOf filled.1.1 filled.1.2, ih filled.2]

theorem members_objectOf (u : UserRec) : (objectOf u).members (K := K) =
    [("mustChange", .boolean u.mustChange), ("password", .string u.password), ("role", .string (roleToString u.role)),
      ("username", .string u.username)] := rfl

/-- A document that is written is plain. -/
theorem plain_documentOf (users : List UserRec) : Plain (K := K) (documentOf (users.map objectOf)) := by
  have each : ∀ u : UserRec, Plain (K := K) (objectOf u).document := by
    intro u
    rw [UserObject.document, members_objectOf]
    apply Plain.object
    · have ordered : ["mustChange", "password", "role", "username"].Pairwise (· < ·) := by decide +kernel
      exact ordered
    · intro f member
      simp only [List.mem_cons, List.not_mem_nil, or_false] at member
      rcases member with rfl | rfl | rfl | rfl
      · exact Plain.boolean u.mustChange
      · exact Plain.string u.password
      · exact Plain.string (roleToString u.role)
      · exact Plain.string u.username
  apply Plain.object
  · exact List.pairwise_singleton _ _
  · intro f member
    rw [List.mem_singleton.mp member]
    apply Plain.array
    intro j among
    obtain ⟨o, written, rfl⟩ := List.mem_map.mp among
    obtain ⟨u, -, rfl⟩ := List.mem_map.mp written
    exact each u

/-- The objects of a document that is written are read as they were. -/
theorem objectsIn_documentOf (users : List UserRec) :
    objectsIn (some (documentOf (K := K) (users.map objectOf))) = some (users.map objectOf) := by
  have back : ∀ u : UserRec, UserObject.read (K := K) (objectOf u).document = objectOf u := by
    intro u
    rfl
  have whole : (users.map objectOf).map (fun o => UserObject.read (K := K) o.document) = users.map objectOf := by
    rw [List.map_map]
    apply List.map_congr_left
    intro u _
    exact back u
  calc objectsIn (some (documentOf (K := K) (users.map objectOf)))
      = some (((users.map objectOf).map UserObject.document).map (UserObject.read (K := K))) := rfl
    _ = some (users.map objectOf) := by rw [List.map_map]; exact congrArg some whole

end Objects

/-- Loading a table that was saved gives back the same users in the same order, and with them
the same passwords that are accepted for each name. -/
theorem loadUsers_saveUsers {File : Type} {library : JsonLibrary K File} (faithful : library.RoundTrips)
    (sha256Hex : ByteArray → String) (m other : AuthManager) (nowMs : Nat) (path : String) (some : m.users ≠ [])
    (filled : ∀ u ∈ m.users, u.username ≠ "" ∧ u.password ≠ "") :
    ∃ objects, (m.saveUsersToJson nowMs path true).2 = [.written objects, .returned true] ∧
      other.loadUsersFromJson (objectsIn (library.fromJson (library.toJson (documentOf objects)))) =
        ({ other with users := m.users }, true) ∧
      ∀ username password, ({ other with users := m.users } : AuthManager).verifies sha256Hex username password =
        m.verifies sha256Hex username password := by
  refine ⟨m.users.map objectOf, rfl, ?_, fun username password => rfl⟩
  have users : ((objectsIn (library.fromJson (library.toJson (documentOf (m.users.map objectOf))))).getD []).filterMap
      userOf = m.users := by
    rw [faithful _ (plain_documentOf m.users), objectsIn_documentOf, Option.getD_some, filterMap_userOf filled]
  have more : m.users.isEmpty = false := List.isEmpty_eq_false_iff.mpr some
  rw [loadUsersFromJson, users, more]
  rfl

/-- A library whose files hold the documents themselves. -/
def plainLibrary : JsonLibrary Unit (Json Unit) := ⟨id, some⟩

/-- An old plain password, a hashed one, and two users that have their first change before them. -/
def savedUsers : AuthManager where
  users :=
    [⟨"admin", "sha256$salt$00", .admin, false⟩, ⟨"工程师", "plain", .engineer, true⟩, ⟨"op", "sha256$", .operator, true⟩]

theorem loadUsers_saveUsers_mixed :
    ∃ objects, (savedUsers.saveUsersToJson 0 "users.json" true).2 = [.written objects, .returned true] ∧
      ({} : AuthManager).loadUsersFromJson
          (objectsIn (plainLibrary.fromJson (plainLibrary.toJson (documentOf objects)))) =
        ({ users := savedUsers.users }, true) ∧
      ∀ username password, ({ users := savedUsers.users } : AuthManager).verifies (fun _ => "00") username password =
        savedUsers.verifies (fun _ => "00") username password := by
  have faithful : plainLibrary.RoundTrips := by
    intro document _
    rfl
  exact loadUsers_saveUsers faithful _ savedUsers {} 0 "users.json" (by decide) (by decide)

end AuthManager
end EnerSentry.Business
